import PgMesh.Store.CopyAgreement

/-!
# The goroutines of the asynchronous COPY

`CopyXAsync` starts two goroutines for each call: one awaits the futures of
the call's groups and resolves a combined future, the other awaits that future,
ends the span of the call and resolves the future that the caller has.  `FlushX`
waits for its flushes in its own goroutine, until its context is cancelled.
None of them holds the mutex `state.mu`.
-/

namespace PgMesh.Store

open PgMesh.Foundation
open PgMesh.Topology
open PgMesh.Copy
open PgMesh.Copy.Batcher (Reply)
open CopyBatchState (AsyncReply)

variable {ρ κ A Item α ε : Type}

/-! ## Calls of `CopyXAsync` -/

/-- Where the goroutine of `combined` is, with the index of the accepted call. -/
inductive CallPhase (ε : Type) where
  | rejected
  | submitting (call : Nat)
  | combining (call : Nat) (asyncResults : List (String × Reply ε)) (count : Int64)
      (copyErrors : List (GoError ε))
  | combined (call : Nat)

def CallPhase.call? : CallPhase ε → Option Nat
  | .rejected => none
  | .submitting call => some call
  | .combining call _ _ _ => some call
  | .combined call => some call

/-- Where the goroutine of `finish` is. -/
inductive FinishPhase (ε : Type) where
  | awaiting
  | ended (count : Int64) (err : Option (GoError ε))
  | returned

/--
A call with the future that `finish` gets, the calls of `querySpan.End` and the
future that the caller gets.
-/
structure AsyncCall (ε : Type) where
  phase : CallPhase ε
  future : Future Int64 ε
  finish : FinishPhase ε
  spanEnds : List (Option (GoError ε))
  result : Future Int64 ε

namespace AsyncCall

def start : AsyncReply ε → AsyncCall ε
  | .resolved value err => ⟨.rejected, Future.resolved value err, .awaiting, [], Future.new⟩
  | .accepted call => ⟨.submitting call, Future.new, .awaiting, [], Future.new⟩

/-- The mutex is released, and the goroutine of `combined` starts. -/
def combine (asyncResults : List (String × Reply ε)) (c : AsyncCall ε) (call : Nat) :
    AsyncCall ε :=
  { c with phase := .combining call asyncResults 0 [] }

/-- The next future of the loop is resolved. -/
def awaitPart (q : CopyQuery Item A α) (st : CopyBatchState Item ρ α ε)
    (c : AsyncCall ε) : Option (AsyncCall ε) :=
  match c.phase with
  | .combining call (asyncResult :: asyncResults) count copyErrors =>
      match st.awaitResult asyncResult with
      | none => none
      | some (_, some err) =>
          some { c with
            phase := .combining call asyncResults count
              (copyErrors ++ [shardError q.methodName asyncResult.1 err]) }
      | some (shardCount, none) =>
          some { c with
            phase := .combining call asyncResults (count + shardCount) copyErrors }
  | _ => none

def combinedReturns (c : AsyncCall ε) : Option (AsyncCall ε) :=
  match c.phase with
  | .combining call [] count copyErrors =>
      match GoError.join copyErrors with
      | some err =>
          some { c with phase := .combined call, future := c.future.resolve 0 (some err) }
      | none =>
          some { c with phase := .combined call, future := c.future.resolve count none }
  | _ => none

/-- `querySpan.End(err)`, with what the future of `finish` returned. -/
def endSpan (c : AsyncCall ε) : Option (AsyncCall ε) :=
  match c.finish, c.future.await with
  | .awaiting, some (count, err) =>
      some { c with finish := .ended count err, spanEnds := c.spanEnds ++ [err] }
  | _, _ => none

def finishReturns (c : AsyncCall ε) : Option (AsyncCall ε) :=
  match c.finish with
  | .ended count err =>
      some { c with finish := .returned, result := c.result.resolve count err }
  | _ => none

end AsyncCall

/-! ## Calls of `FlushX` -/

/--
The loop of `FlushX` over its flushes.  `polled` says that `Await` has found
the next future unresolved in its first `select` and is in its second one;
`ctxErr` is `ctx.Err()`.
-/
structure FlushWait (ε : Type) where
  flush : Nat
  remaining : List (String × Nat)
  polled : Bool
  ctxErr : Option (GoError ε)
  flushErrors : List (GoError ε)
  result : Option (Option (GoError ε))

def flushError (methodName shardName : String) (err : GoError ε) : GoError ε :=
  .errorf ("flush " ++ methodName ++ " on replica set %q: %w")
    [.text shardName, .wrapped err]

/-- The error of a flush whose future is resolved. -/
def CopyBatchState.flushOutcome (st : CopyBatchState Item ρ α ε) (entry : String × Nat) :
    Option (Option (GoError ε)) :=
  (((GoMap.get? st.batchers entry.1).bind fun b => b.flushes[entry.2]?).bind
    fun flush => flush.result.await).map Prod.snd

namespace FlushWait

def start (flush : Nat) (flushes : List (String × Nat)) : FlushWait ε :=
  ⟨flush, flushes, false, none, [], none⟩

/-- The rest of the loop body, after `Await` has returned `err`. -/
def consume (q : CopyQuery Item A α) (w : FlushWait ε) (shardName : String)
    (rest : List (String × Nat)) (err : Option (GoError ε)) : FlushWait ε :=
  match err with
  | none => { w with remaining := rest, polled := false }
  | some err =>
      { w with
        remaining := if w.ctxErr.isSome then [] else rest
        polled := false
        flushErrors := w.flushErrors ++ [flushError q.methodName shardName err] }

/-- The first `select` of `Await`, which does not look at the context. -/
def poll (q : CopyQuery Item A α) (st : CopyBatchState Item ρ α ε) (w : FlushWait ε) :
    Option (FlushWait ε) :=
  match w.polled, w.remaining with
  | false, entry :: rest =>
      match st.flushOutcome entry with
      | none => some { w with polled := true }
      | some err => some (w.consume q entry.1 rest err)
  | _, _ => none

/-- The second `select` of `Await` finds the future resolved. -/
def await (q : CopyQuery Item A α) (st : CopyBatchState Item ρ α ε) (w : FlushWait ε) :
    Option (FlushWait ε) :=
  match w.polled, w.remaining with
  | true, entry :: rest => (st.flushOutcome entry).map (w.consume q entry.1 rest)
  | _, _ => none

/-- The second `select` of `Await` finds the context cancelled. -/
def cancelled (q : CopyQuery Item A α) (w : FlushWait ε) : Option (FlushWait ε) :=
  match w.polled, w.remaining, w.ctxErr with
  | true, entry :: rest, some err => some (w.consume q entry.1 rest (some err))
  | _, _, _ => none

def returns (w : FlushWait ε) : Option (FlushWait ε) :=
  match w.result, w.remaining with
  | none, [] => some { w with result := some (GoError.join w.flushErrors) }
  | _, _ => none

/-- The caller's context is cancelled, once. -/
def cancelContext (w : FlushWait ε) (err : GoError ε) : Option (FlushWait ε) :=
  match w.ctxErr with
  | none => some { w with ctxErr := some err }
  | some _ => none

end FlushWait

/-! ## The store -/

/-- One query of the store, with the goroutines of its calls. -/
structure AsyncStore (Item ρ α ε : Type) where
  copy : CopyBatchState Item ρ α ε
  asyncCalls : List (AsyncCall ε)
  waits : List (FlushWait ε)

inductive CallStep where
  | awaitPart
  | combinedReturns
  | endSpan
  | finishReturns

inductive WaitStep (ε : Type) where
  | poll
  | await
  | cancelled
  | returns
  | cancelContext (err : GoError ε)

inductive StoreAction (Item α ε : Type) where
  | copyAsync (arg : List Item) (ctxErr : Option (GoError ε))
  | copyUnlock (call : Nat)
  | flushUnlock
  | locked (action : AsyncAction Item α ε)
  | call (index : Nat) (step : CallStep)
  | wait (index : Nat) (step : WaitStep ε)

/-- The labels of the batching state that start or end no goroutine of a call. -/
def AsyncAction.silent : AsyncAction Item α ε → Bool
  | .copyAsync _ _ => false
  | .copyUnlock => false
  | .flushUnlock => false
  | _ => true

def AsyncCall.step (q : CopyQuery Item A α) (st : CopyBatchState Item ρ α ε)
    (c : AsyncCall ε) : CallStep → Option (AsyncCall ε)
  | .awaitPart => c.awaitPart q st
  | .combinedReturns => c.combinedReturns
  | .endSpan => c.endSpan
  | .finishReturns => c.finishReturns

def FlushWait.step (q : CopyQuery Item A α) (st : CopyBatchState Item ρ α ε)
    (w : FlushWait ε) : WaitStep ε → Option (FlushWait ε)
  | .poll => w.poll q st
  | .await => w.await q st
  | .cancelled => w.cancelled q
  | .returns => w.returns
  | .cancelContext err => w.cancelContext err

namespace AsyncStore

def initial (copy : CopyBatchState Item ρ α ε) : AsyncStore Item ρ α ε := ⟨copy, [], []⟩

section Steps

variable [Named ρ] [Inhabited κ]

def copyAsync (s : MeshStore ρ κ A) (q : CopyQuery Item A α) (st : AsyncStore Item ρ α ε)
    (arg : List Item) (ctxErr : Option (GoError ε)) : Option (AsyncStore Item ρ α ε) :=
  match st.copy.copyAsync s q arg ctxErr with
  | none => none
  | some (copy, reply) =>
      some { st with copy := copy, asyncCalls := st.asyncCalls ++ [.start reply] }

/-- The call that holds the mutex releases it and starts its goroutines. -/
def copyUnlock (st : AsyncStore Item ρ α ε) (index : Nat) :
    Option (AsyncStore Item ρ α ε) :=
  match st.copy.mu, st.asyncCalls[index]? with
  | some (.copying call), some c =>
      match c.phase, st.copy.calls[call]?, st.copy.copyUnlock with
      | .submitting own, some accepted, some copy =>
          if own = call then
            some { st with
              copy := copy
              asyncCalls := st.asyncCalls.set index (c.combine accepted.asyncResults call) }
          else none
      | _, _, _ => none
  | _, _ => none

/-- `FlushX` releases the mutex and starts to wait. -/
def flushUnlock (st : AsyncStore Item ρ α ε) : Option (AsyncStore Item ρ α ε) :=
  match st.copy.mu with
  | some (.flushing flush) =>
      match st.copy.flushes[flush]?, st.copy.flushUnlock with
      | some f, some copy =>
          some { st with copy := copy, waits := st.waits ++ [.start flush f.flushes] }
      | _, _ => none
  | _ => none

def step (s : MeshStore ρ κ A) (q : CopyQuery Item A α) (st : AsyncStore Item ρ α ε) :
    StoreAction Item α ε → Option (AsyncStore Item ρ α ε)
  | .copyAsync arg ctxErr => st.copyAsync s q arg ctxErr
  | .copyUnlock index => st.copyUnlock index
  | .flushUnlock => st.flushUnlock
  | .locked action =>
      if action.silent then
        (st.copy.step s q action).map fun copy => { st with copy := copy }
      else none
  | .call index label =>
      match st.asyncCalls[index]? with
      | none => none
      | some c =>
          (c.step q st.copy label).map fun c =>
            { st with asyncCalls := st.asyncCalls.set index c }
  | .wait index label =>
      match st.waits[index]? with
      | none => none
      | some w =>
          (w.step q st.copy label).map fun w => { st with waits := st.waits.set index w }

end Steps

end AsyncStore

end PgMesh.Store
