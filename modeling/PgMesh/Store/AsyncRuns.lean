import PgMesh.Store.AsyncFutures

/-!
# What the caller of the asynchronous COPY gets

The future of a call is settled by the futures of its groups, after the span of
the call has ended.  A physical COPY that is under way keeps the spans of all
the calls open that have rows in it.
-/

namespace PgMesh.Copy

open PgMesh.Foundation
open Batcher

variable {α ε : Type}

namespace Batcher

/-! ## Only a submission adds to the accepted ones -/

@[simp] theorem enqueueLocked_accepted (s : Batcher α ε) (batch : Option (CopyBatch α)) :
    (s.enqueueLocked batch).accepted = s.accepted := by
  unfold enqueueLocked
  split
  · rfl
  · split <;> rfl

@[simp] theorem enqueueActive_accepted (s : Batcher α ε) (reason : FlushReason) :
    (s.enqueueActive reason).accepted = s.accepted := by
  cases hactive : s.active with
  | none => rw [enqueueActive_of_none hactive]
  | some batch =>
      cases htimer : batch.timer with
      | none => simp [enqueueActive, detachActiveLocked, hactive, htimer, stopTimer]
      | some timer => simp [enqueueActive, detachActiveLocked, hactive, htimer, stopTimer]

theorem appendToActive_accepted (s : Batcher α ε) (active : CopyBatch α) (rows : List α)
    (request : Nat) : (s.appendToActive active rows request).1.accepted = s.accepted := by
  simp only [appendToActive]
  rw [apply_ite Batcher.accepted, enqueueActive_accepted, ite_self]
  rfl

@[simp] theorem appendRequestLocked_accepted (s : Batcher α ε) (rows : List α)
    (request : Nat) : (s.appendRequestLocked rows request).1.accepted = s.accepted := by
  obtain ⟨batch, timers, nextBatch, -, heq⟩ := s.appendRequestLocked_eq
  rw [heq, appendToActive_accepted]

@[simp] theorem schedule_accepted (s : Batcher α ε) :
    s.schedule.accepted = s.accepted := by
  obtain ⟨batches, rest, -, heq, -⟩ := s.schedule_spec
  rw [heq]

theorem accepted_step {s s' : Batcher α ε} {action : Action α ε}
    (hcall : ∀ rows coalesce ctxErr ctxErrLocked,
      action ≠ .submit rows coalesce ctxErr ctxErrLocked)
    (hstep : s.step action = some s') : s'.accepted = s.accepted := by
  cases action with
  | submit rows coalesce ctxErr ctxErrLocked => exact absurd rfl (hcall _ _ _ _)
  | place =>
      change s.place = some s' at hstep
      unfold place at hstep
      split at hstep
      · cases hstep
      · split at hstep
        · cases hstep
        · split at hstep
          · cases hstep
            exact appendRequestLocked_accepted s _ _
          · cases hstep
            simp [enqueueUnbatchedLocked, addPart]
  | unlock =>
      change s.unlock = some s' at hstep
      unfold unlock at hstep
      split at hstep
      · cases hstep
      · split at hstep
        · cases hstep
          simp
        · cases hstep
  | timerFires timer =>
      change s.timerFires timer = some s' at hstep
      unfold timerFires at hstep
      split at hstep
      · cases hstep
        rfl
      · cases hstep
  | flushExpiredBatch timer =>
      change s.flushExpiredBatch timer = some s' at hstep
      unfold flushExpiredBatch at hstep
      split at hstep
      · dsimp only at hstep
        split at hstep
        · cases hstep
          rfl
        · split at hstep
          · cases hstep
            rfl
          · cases hstep
            simp
      · cases hstep
  | flushAsync order =>
      change s.flushAsync order = some s' at hstep
      unfold flushAsync at hstep
      split at hstep
      · cases hstep
      · split at hstep
        · cases hstep
          simp
        · cases hstep
  | copyReturns runner count err =>
      change s.copyReturns runner count err = some s' at hstep
      unfold copyReturns at hstep
      split at hstep
      · cases hstep
        rfl
      · cases hstep
  | finishPart runner =>
      change s.finishPart runner = some s' at hstep
      unfold finishPart at hstep
      split at hstep
      · split at hstep
        · cases hstep
        · cases hstep
          rfl
      · cases hstep
  | resolve runner =>
      change s.resolve runner = some s' at hstep
      unfold resolve at hstep
      split at hstep
      · cases hstep
        rfl
      · cases hstep
  | complete runner =>
      change s.complete runner = some s' at hstep
      unfold complete at hstep
      split at hstep
      · cases hstep
        simp
      · cases hstep
  | awaitFuture flush =>
      change s.awaitFuture flush = some s' at hstep
      unfold awaitFuture at hstep
      split at hstep
      · split at hstep
        · cases hstep
        · cases hstep
          rfl
      · cases hstep
  | flushReturns flush =>
      change s.flushReturns flush = some s' at hstep
      unfold flushReturns at hstep
      split at hstep
      · cases hstep
        rfl
      · cases hstep

end Batcher
theorem Batcher.flushes_settled_move {s s' : Batcher α ε} (hmove : Move s s') {k : Nat}
    {f : Flush ε} (hf : s.flushes[k]? = some f) {v : Unit × Option (GoError ε)}
    (hv : f.result.outcome = some v) :
    ∃ f', s'.flushes[k]? = some f' ∧ f'.result.outcome = some v := by
  have hset : ∀ {j : Nat} {old new : Flush ε}, s.flushes[j]? = some old →
      (old.result.outcome = some v → new.result.outcome = some v) →
        ∃ f', (s.flushes.set j new)[k]? = some f' ∧ f'.result.outcome = some v := by
    intro j old new hold hnew
    by_cases hjk : j = k
    · subst hjk
      rw [hf] at hold
      cases hold
      exact ⟨new, List.getElem?_set_self (List.getElem?_eq_some_iff.mp hf).1, hnew hv⟩
    · exact ⟨f, by rw [List.getElem?_set_ne hjk, hf], hv⟩
  cases hmove with
  | flush free inactive order_perm =>
      refine ⟨f, ?_, hv⟩
      rw [List.getElem?_append_left (List.getElem?_eq_some_iff.mp hf).1]
      exact hf
  | awaitFuture waiting found settled => exact hset waiting id
  | flushReturns waiting => exact hset waiting nofun
  | _ => exact ⟨f, hf, hv⟩

/-- The result of a flush is never taken back. -/
theorem Reachable.flush_settled {s t : Batcher α ε} (h : Reachable s)
    (hrun : Reaches Batcher.step s t) {k : Nat} {f : Flush ε}
    (hf : s.flushes[k]? = some f) {v : Unit × Option (GoError ε)}
    (hv : f.result.outcome = some v) :
    ∃ later, t.flushes[k]? = some later ∧ later.result.outcome = some v := by
  refine h.relation (P := fun _ => True)
    (R := fun s t => ∀ f, s.flushes[k]? = some f → f.result.outcome = some v →
      ∃ later, t.flushes[k]? = some later ∧ later.result.outcome = some v)
    hrun trivial (fun _ _ _ => trivial) (fun _ f hf hv => ⟨f, hf, hv⟩) ?_ ?_ f hf hv
  · intro s t u hst htu f hf hv
    obtain ⟨f', hf', hv'⟩ := hst f hf hv
    exact htu f' hf' hv'
  · intro s s' _ _ hmove f hf hv
    exact flushes_settled_move hmove hf hv

/-- A request in a physical COPY that has not returned is not resolved. -/
theorem Reachable.outcome_of_copying {s : Batcher α ε} (h : Reachable s)
    {runner : Runner α ε} (hrunner : runner ∈ s.runners) (hcopying : runner.outcome = none)
    {request : Nat} (hmem : request ∈ runner.batch.requests) :
    s.outcome request = none := by
  have hledger := h.inv.ledger
  cases hq : s.requests[request]? with
  | none => simp [Batcher.outcome, hq]
  | some q =>
      rw [outcome_of_found hq]
      by_contra hsettled
      obtain ⟨-, hparts, -⟩ :=
        (hledger.ledger request q hq).stage.settled_of_outcome hsettled
      have hfinished := (not_mem_of_openParts hparts).2
      have hown : runner ∈ s.own request :=
        List.mem_filter.mpr ⟨hrunner, by simpa using hmem⟩
      exact hledger.returned hfinished runner hown hcopying

end PgMesh.Copy

namespace PgMesh.Store

open PgMesh.Foundation
open PgMesh.Topology
open PgMesh.Copy
open PgMesh.Copy.Batcher (Reply)

variable {ρ κ A Item α ε : Type}

namespace CopyBatchState

/-! ## Later states of the batching state -/

/-- What a state keeps of an earlier one; a finished call never changes. -/
structure Later (st st' : CopyBatchState Item ρ α ε) : Prop where
  advances : Advances st.batchers st'.batchers
  calls : ∀ (i : Nat) (call : CopyCall Item ρ α ε), st.calls[i]? = some call →
    call.remaining = [] → st'.calls[i]? = some call
  flushes : ∀ (j : Nat) (f : FlushCall), st.flushes[j]? = some f →
    f.remaining = [] → st'.flushes[j]? = some f

namespace Later

variable {st st' : CopyBatchState Item ρ α ε}

theorem refl (st : CopyBatchState Item ρ α ε) : Later st st :=
  ⟨.refl _, fun _ _ h _ => h, fun _ _ h _ => h⟩

theorem setBatcher {shardName : String} {b b' : Batcher α ε} {action : Action α ε}
    (hb : GoMap.get? st.batchers shardName = some b) (hstep : b.step action = some b') :
    Later st { st with batchers := GoMap.set st.batchers shardName b' } :=
  ⟨.set hb (.single hstep), fun _ _ h _ => h, fun _ _ h _ => h⟩

theorem appendCall (call : CopyCall Item ρ α ε) (mu : Option MuHolder) :
    Later st { st with mu := mu, calls := st.calls ++ [call] } := by
  refine ⟨.refl _, ?_, fun _ _ h _ => h⟩
  intro i call' hcall' _
  rw [List.getElem?_append_left (List.getElem?_eq_some_iff.mp hcall').1, hcall']

theorem appendFlush (f : FlushCall) (mu : Option MuHolder) :
    Later st { st with mu := mu, flushes := st.flushes ++ [f] } := by
  refine ⟨.refl _, fun _ _ h _ => h, ?_⟩
  intro j f' hf' _
  rw [List.getElem?_append_left (List.getElem?_eq_some_iff.mp hf').1, hf']

/-- The call that is changed is not finished. -/
theorem setCall (h : Later st st') {i : Nat} {old new : CopyCall Item ρ α ε}
    (hold : st.calls[i]? = some old) (hopen : old.remaining ≠ []) :
    Later st { st' with calls := st'.calls.set i new } := by
  refine ⟨h.advances, ?_, h.flushes⟩
  intro j call hcall hdone
  by_cases hij : i = j
  · subst hij
    rw [hold] at hcall
    cases hcall
    exact absurd hdone hopen
  · rw [List.getElem?_set_ne hij]
    exact h.calls j call hcall hdone

theorem setFlush (h : Later st st') {j : Nat} {old new : FlushCall}
    (hold : st.flushes[j]? = some old) (hopen : old.remaining ≠ []) :
    Later st { st' with flushes := st'.flushes.set j new } := by
  refine ⟨h.advances, h.calls, ?_⟩
  intro k f hf hdone
  by_cases hjk : j = k
  · subst hjk
    rw [hold] at hf
    cases hf
    exact absurd hdone hopen
  · rw [List.getElem?_set_ne hjk]
    exact h.flushes k f hf hdone

end Later

variable [Named ρ] [Inhabited κ] {s : MeshStore ρ κ A} {q : CopyQuery Item A α}
  {st st' : CopyBatchState Item ρ α ε}

theorem later_copyAsync {arg : List Item} {ctxErr : Option (GoError ε)}
    {reply : AsyncReply ε} (hstep : st.copyAsync s q arg ctxErr = some (st', reply)) :
    Later st st' ∧ ((∃ value err, reply = .resolved value err ∧ st' = st) ∨
      ∃ groups, reply = .accepted st.calls.length ∧ st.mu = none ∧ groups ≠ [] ∧
        st' = { st with
          mu := some (.copying st.calls.length)
          calls := st.calls ++ [⟨arg, groups, groups, []⟩] }) := by
  unfold CopyBatchState.copyAsync at hstep
  split at hstep
  · cases hstep
    exact ⟨.refl _, .inl ⟨_, _, rfl, rfl⟩⟩
  · rename_i groups _
    split at hstep
    · cases hstep
      exact ⟨.refl _, .inl ⟨_, _, rfl, rfl⟩⟩
    · rename_i hne
      split at hstep
      · cases hstep
      · cases hstep
        exact ⟨.refl _, .inl ⟨_, _, rfl, rfl⟩⟩
      · rename_i hmu
        split at hstep
        · cases hstep
          exact ⟨.refl _, .inl ⟨_, _, rfl, rfl⟩⟩
        · cases hstep
          refine ⟨.appendCall _ _, .inr ⟨groups, rfl, hmu, ?_, rfl⟩⟩
          simpa [List.length_eq_zero_iff] using hne

/-- The call that holds the mutex hands its next group to a batcher. -/
theorem submit_cases (hstep : st.submit = some st') :
    ∃ i call group remaining b b' reply, st.mu = some (.copying i) ∧
      st.calls[i]? = some call ∧ call.remaining = group :: remaining ∧
      GoMap.get? st.batchers group.shard.replicaSetName = some b ∧
      b.submit group.args st.enabled none none = some (b', reply) ∧
      st' = { st with
        batchers := GoMap.set st.batchers group.shard.replicaSetName b'
        calls := st.calls.set i ⟨call.arg, call.groups, remaining,
          call.asyncResults ++ [(group.shard.replicaSetName, reply)]⟩ } := by
  unfold CopyBatchState.submit at hstep
  split at hstep
  · rename_i i hmu
    split at hstep
    · rename_i hcall
      split at hstep
      · split at hstep
        · cases hstep
        · rename_i b hb
          split at hstep
          · cases hstep
          · rename_i b' reply hsubmit
            cases hstep
            exact ⟨i, _, _, _, b, b', reply, hmu, hcall, rfl, hb, hsubmit, rfl⟩
      · cases hstep
    · cases hstep
  · cases hstep

theorem later_submit (hstep : st.submit = some st') : Later st st' := by
  obtain ⟨i, call, group, remaining, b, b', reply, -, hcall, hremaining, hb, hsubmit, rfl⟩ :=
    submit_cases hstep
  have hbatcher : b.step (.submit group.args st.enabled none none) = some b' := by
    simp [Batcher.step, hsubmit]
  exact (Later.setBatcher hb hbatcher).setCall hcall (by simp [hremaining])

omit [Named ρ] in
theorem later_flushAsync {order : List Nat} (hstep : st.flushAsync order = some st') :
    Later st st' := by
  unfold CopyBatchState.flushAsync at hstep
  split at hstep
  · split at hstep
    · rename_i hflush
      split at hstep
      · cases hstep
        exact (Later.refl st).setFlush hflush (by simp)
      · rename_i b hb
        split at hstep
        · cases hstep
        · rename_i b' hb'
          cases hstep
          have hbatcher : b.step (.flushAsync order) = some b' := hb'
          exact (Later.setBatcher hb hbatcher).setFlush hflush (by simp)
    · cases hstep
  · cases hstep

omit [Named ρ] in
theorem later_copyUnlock (hstep : st.copyUnlock = some st') :
    st' = { st with mu := none } ∧ ∃ i call, st.mu = some (.copying i) ∧
      st.calls[i]? = some call ∧ call.remaining = [] := by
  unfold CopyBatchState.copyUnlock at hstep
  split at hstep
  · rename_i i hmu
    split at hstep
    · rename_i hcall
      split at hstep
      · cases hstep
        exact ⟨rfl, i, _, hmu, hcall, rfl⟩
      · cases hstep
    · cases hstep
  · cases hstep

omit [Named ρ] in
theorem later_flushUnlock (hstep : st.flushUnlock = some st') :
    st' = { st with mu := none } ∧ ∃ j f, st.mu = some (.flushing j) ∧
      st.flushes[j]? = some f ∧ f.remaining = [] := by
  unfold CopyBatchState.flushUnlock at hstep
  split at hstep
  · rename_i j hmu
    split at hstep
    · rename_i hflush
      cases hstep
      exact ⟨rfl, j, _, hmu, hflush, rfl⟩
    · cases hstep
  · cases hstep

omit [Named ρ] in
theorem Later.unlock (st : CopyBatchState Item ρ α ε) : Later st { st with mu := none } :=
  ⟨.refl _, fun _ _ h _ => h, fun _ _ h _ => h⟩

theorem later_step {action : AsyncAction Item α ε}
    (hstep : st.step s q action = some st') : Later st st' := by
  cases action with
  | copyAsync arg ctxErr =>
      obtain ⟨⟨next, reply⟩, hcopy, rfl⟩ := Option.map_eq_some_iff.mp hstep
      exact (later_copyAsync hcopy).1
  | submit => exact later_submit hstep
  | copyUnlock =>
      rw [(later_copyUnlock hstep).1]
      exact .unlock st
  | flush =>
      change st.flush s = some st' at hstep
      unfold CopyBatchState.flush at hstep
      split at hstep
      · cases hstep
      · cases hstep
        exact .appendFlush _ _
  | flushAsync order => exact later_flushAsync hstep
  | flushUnlock =>
      rw [(later_flushUnlock hstep).1]
      exact .unlock st
  | batcher shardName action =>
      change st.batcherStep shardName action = some st' at hstep
      unfold CopyBatchState.batcherStep at hstep
      split at hstep
      · cases hstep
      · split at hstep
        · cases hstep
        · rename_i b hb
          split at hstep
          · cases hstep
          · rename_i b' hb'
            cases hstep
            exact .setBatcher hb hb'

end CopyBatchState

theorem Advances.trans {first second third : GoMap String (Batcher α ε)}
    (h : Advances first second) (h' : Advances second third) : Advances first third := by
  intro shardName b hb
  obtain ⟨b', hb', hrun⟩ := h shardName b hb
  obtain ⟨b'', hb'', hrun'⟩ := h' shardName b' hb'
  exact ⟨b'', hb'', hrun.trans hrun'⟩

namespace CopyBatchState

theorem Later.trans {first second third : CopyBatchState Item ρ α ε}
    (h : Later first second) (h' : Later second third) : Later first third where
  advances := h.advances.trans h'.advances
  calls i call hcall hdone := h'.calls i call (h.calls i call hcall hdone) hdone
  flushes j f hf hdone := h'.flushes j f (h.flushes j f hf hdone) hdone

/-! ## Futures that stay resolved -/

/-- The batchers of the state are in states that they can reach. -/
def BatchersReachable (st : CopyBatchState Item ρ α ε) : Prop :=
  ∀ shardName b, GoMap.get? st.batchers shardName = some b → Reachable b

variable {q : CopyQuery Item A α} {st st' : CopyBatchState Item ρ α ε}

theorem awaitResult_later (hreach : st.BatchersReachable) (h : Later st st')
    {result : String × Reply ε} {v : Int64 × Option (GoError ε)}
    (hv : st.awaitResult result = some v) : st'.awaitResult result = some v := by
  obtain ⟨shardName, reply⟩ := result
  cases reply with
  | resolved value err => exact hv
  | pending request =>
      obtain ⟨b, hb, houtcome⟩ := Option.bind_eq_some_iff.mp hv
      obtain ⟨b', hb', hrun⟩ := h.advances shardName b hb
      have hstable := (hreach shardName b hb).outcome_stable hrun houtcome
      simp only [awaitResult, hb', Option.bind_some]
      exact hstable

theorem awaitResults_later (hreach : st.BatchersReachable) (h : Later st st')
    {asyncResults : List (String × Reply ε)} {count : Int64}
    {copyErrors : List (GoError ε)} {v : Int64 × Option (GoError ε)}
    (hv : st.awaitResults q count copyErrors asyncResults = some v) :
    st'.awaitResults q count copyErrors asyncResults = some v := by
  induction asyncResults generalizing count copyErrors with
  | nil => exact hv
  | cons result asyncResults ih =>
      simp only [awaitResults] at hv ⊢
      cases hresult : st.awaitResult result with
      | none => simp [hresult] at hv
      | some w =>
          obtain ⟨shardCount, err⟩ := w
          rw [awaitResult_later hreach h hresult]
          rw [hresult] at hv
          cases err with
          | none => exact ih hv
          | some err => exact ih hv

theorem flushOutcome_later (hreach : st.BatchersReachable) (h : Later st st')
    {entry : String × Nat} {v : Option (GoError ε)}
    (hv : st.flushOutcome entry = some v) : st'.flushOutcome entry = some v := by
  obtain ⟨⟨value, err⟩, houtcome, rfl⟩ := Option.map_eq_some_iff.mp hv
  obtain ⟨flush, hflush, hresult⟩ := Option.bind_eq_some_iff.mp houtcome
  obtain ⟨b, hb, hget⟩ := Option.bind_eq_some_iff.mp hflush
  obtain ⟨b', hb', hrun⟩ := h.advances entry.1 b hb
  obtain ⟨later, hlater, hsettled⟩ := (hreach entry.1 b hb).flush_settled hrun hget hresult
  unfold flushOutcome
  simp only [hb', Option.bind_some, hlater, Future.await, hsettled, Option.map_some]

end CopyBatchState

/-! ## One call -/

open CopyBatchState (Later BatchersReachable)

/--
What the goroutine of `combined` has done with the future that it resolves.  Its
loop agrees with `combined` in every later state, whatever is resolved until then.
-/
inductive Settling (q : CopyQuery Item A α) (st : CopyBatchState Item ρ α ε) :
    CallPhase ε → Option (Int64 × Option (GoError ε)) → Prop
  | rejected (v : Int64 × Option (GoError ε)) : Settling q st .rejected (some v)
  | submitting (i : Nat) : Settling q st (.submitting i) none
  | combining {i : Nat} {call : CopyCall Item ρ α ε} {rest : List (String × Reply ε)}
      {count : Int64} {copyErrors : List (GoError ε)} :
      st.calls[i]? = some call → call.remaining = [] →
      (∀ st', Later st st' →
        st'.awaitResults q count copyErrors rest = st'.combined q call) →
      Settling q st (.combining i rest count copyErrors) none
  | combined {i : Nat} {call : CopyCall Item ρ α ε} {v : Int64 × Option (GoError ε)} :
      st.calls[i]? = some call → call.remaining = [] → st.combined q call = some v →
      Settling q st (.combined i) (some v)

/-- What the goroutine of `finish` has done, by the future that it awaits. -/
inductive Finishing : Option (Int64 × Option (GoError ε)) → FinishPhase ε →
    List (Option (GoError ε)) → Option (Int64 × Option (GoError ε)) → Prop
  | awaiting (future : Option (Int64 × Option (GoError ε))) :
      Finishing future .awaiting [] none
  | ended (count : Int64) (err : Option (GoError ε)) :
      Finishing (some (count, err)) (.ended count err) [err] none
  | returned (count : Int64) (err : Option (GoError ε)) :
      Finishing (some (count, err)) .returned [err] (some (count, err))

namespace AsyncCall

structure Inv (q : CopyQuery Item A α) (st : CopyBatchState Item ρ α ε)
    (c : AsyncCall ε) : Prop where
  settling : Settling q st c.phase c.future.outcome
  finishing : Finishing c.future.outcome c.finish c.spanEnds c.result.outcome

variable {q : CopyQuery Item A α} {st st' : CopyBatchState Item ρ α ε}
  {c c' : AsyncCall ε}

theorem Inv.later (h : c.Inv q st) (hreach : st.BatchersReachable)
    (hlater : Later st st') : c.Inv q st' := by
  obtain ⟨hsettling, hfinishing⟩ := h
  refine ⟨?_, hfinishing⟩
  generalize c.phase = phase, c.future.outcome = outcome at hsettling
  cases hsettling with
  | rejected v => exact .rejected v
  | submitting i => exact .submitting i
  | combining hcall hdone hagrees =>
      exact .combining (hlater.calls _ _ hcall hdone) hdone
        fun st'' hlater' => hagrees st'' (hlater.trans hlater')
  | combined hcall hdone hv =>
      exact .combined (hlater.calls _ _ hcall hdone) hdone
        (CopyBatchState.awaitResults_later hreach hlater hv)

theorem start_inv (q : CopyQuery Item A α) (st : CopyBatchState Item ρ α ε)
    (reply : CopyBatchState.AsyncReply ε) : (AsyncCall.start reply).Inv q st := by
  cases reply with
  | resolved value err => exact ⟨.rejected (value, err), .awaiting _⟩
  | accepted call => exact ⟨.submitting call, .awaiting _⟩

theorem Inv.combine (h : c.Inv q st) {i : Nat} (hphase : c.phase = .submitting i)
    {call : CopyCall Item ρ α ε} (hcall : st.calls[i]? = some call)
    (hdone : call.remaining = []) : (c.combine call.asyncResults i).Inv q st := by
  obtain ⟨hsettling, hfinishing⟩ := h
  refine ⟨?_, hfinishing⟩
  rw [hphase] at hsettling
  change Settling q st (.combining i call.asyncResults 0 []) c.future.outcome
  generalize c.future.outcome = outcome at hsettling
  cases hsettling with
  | submitting => exact .combining hcall hdone fun _ _ => rfl

theorem Inv.awaitPart (h : c.Inv q st) (hreach : st.BatchersReachable)
    (hstep : c.awaitPart q st = some c') : c'.Inv q st := by
  obtain ⟨hsettling, hfinishing⟩ := h
  unfold AsyncCall.awaitPart at hstep
  split at hstep
  · rename_i i result rest count copyErrors hphase
    rw [hphase] at hsettling
    have hold : ∃ call, st.calls[i]? = some call ∧ call.remaining = [] ∧
        c.future.outcome = none ∧ ∀ st', Later st st' →
          st'.awaitResults q count copyErrors (result :: rest) = st'.combined q call := by
      generalize c.future.outcome = outcome at hsettling
      cases hsettling with
      | combining hcall hdone hagrees => exact ⟨_, hcall, hdone, rfl, hagrees⟩
    obtain ⟨call, hcall, hdone, hpending, hagrees⟩ := hold
    split at hstep
    · cases hstep
    all_goals
      rename_i hresult
      cases hstep
      refine ⟨?_, hfinishing⟩
      change Settling q st _ c.future.outcome
      rw [hpending]
      refine .combining hcall hdone fun st' hlater => ?_
      rw [← hagrees st' hlater]
      simp only [CopyBatchState.awaitResults,
        CopyBatchState.awaitResult_later hreach hlater hresult]
  · cases hstep

theorem Inv.combinedReturns (h : c.Inv q st) (hstep : c.combinedReturns = some c') :
    c'.Inv q st := by
  obtain ⟨hsettling, hfinishing⟩ := h
  unfold AsyncCall.combinedReturns at hstep
  split at hstep
  · rename_i i count copyErrors hphase
    rw [hphase] at hsettling
    have hold : ∃ call, st.calls[i]? = some call ∧ call.remaining = [] ∧
        c.future.outcome = none ∧ st.awaitResults q count copyErrors [] = st.combined q call := by
      generalize c.future.outcome = outcome at hsettling
      cases hsettling with
      | combining hcall hdone hagrees => exact ⟨_, hcall, hdone, rfl, hagrees st (.refl st)⟩
    obtain ⟨call, hcall, hdone, hpending, hagrees⟩ := hold
    -- Nothing has been made of a future that is not resolved.
    have hwaiting : c.finish = .awaiting ∧ c.spanEnds = [] ∧ c.result.outcome = none := by
      rw [hpending] at hfinishing
      generalize c.finish = finish, c.spanEnds = ends, c.result.outcome = result
        at hfinishing
      cases hfinishing with
      | awaiting => exact ⟨rfl, rfl, rfl⟩
    obtain ⟨hfinish, hends, hresult⟩ := hwaiting
    split at hstep
    all_goals
      rename_i hjoin
      cases hstep
      simp only [CopyBatchState.awaitResults, hjoin] at hagrees
      refine ⟨?_, ?_⟩
      · change Settling q st (.combined i) (c.future.resolve _ _).outcome
        rw [Future.resolve_of_pending hpending]
        exact .combined hcall hdone hagrees.symm
      · change Finishing _ c.finish c.spanEnds c.result.outcome
        rw [hfinish, hends, hresult]
        exact .awaiting _
  · cases hstep

theorem Inv.endSpan (h : c.Inv q st) (hstep : c.endSpan = some c') : c'.Inv q st := by
  obtain ⟨hsettling, hfinishing⟩ := h
  unfold AsyncCall.endSpan at hstep
  split at hstep
  · rename_i count err hfinish hfuture
    cases hstep
    refine ⟨hsettling, ?_⟩
    change c.future.outcome = some (count, err) at hfuture
    change Finishing c.future.outcome (.ended count err) (c.spanEnds ++ [err])
      c.result.outcome
    rw [hfinish, hfuture] at hfinishing
    rw [hfuture]
    generalize c.spanEnds = ends, c.result.outcome = result at hfinishing
    cases hfinishing with
    | awaiting => exact .ended count err
  · cases hstep

theorem Inv.finishReturns (h : c.Inv q st) (hstep : c.finishReturns = some c') :
    c'.Inv q st := by
  obtain ⟨hsettling, hfinishing⟩ := h
  unfold AsyncCall.finishReturns at hstep
  split at hstep
  · rename_i count err hfinish
    cases hstep
    refine ⟨hsettling, ?_⟩
    rw [hfinish] at hfinishing
    change Finishing c.future.outcome .returned c.spanEnds (c.result.resolve count err).outcome
    generalize hresult : c.result.outcome = result at hfinishing
    generalize c.future.outcome = outcome, c.spanEnds = ends at hfinishing
    cases hfinishing with
    | ended =>
        rw [Future.resolve_of_pending hresult]
        exact .returned count err
  · cases hstep

theorem Inv.step (h : c.Inv q st) (hreach : st.BatchersReachable) {label : CallStep}
    (hstep : c.step q st label = some c') : c'.Inv q st := by
  cases label with
  | awaitPart => exact h.awaitPart hreach hstep
  | combinedReturns => exact h.combinedReturns hstep
  | endSpan => exact h.endSpan hstep
  | finishReturns => exact h.finishReturns hstep

end AsyncCall

end PgMesh.Store
