import PgMesh.Store.FlushWaits
import PgMesh.Copy.Settling

/-!
# The asynchronous COPY comes to rest

The calls of `CopyXAsync` and `FlushX`, their goroutines and the batchers use up the work
that the callers have brought.  When no call arrives, the store takes a bounded number of
steps; then every span has ended and every future is resolved, and no call of `FlushX` waits.
-/

namespace PgMesh.Store

open PgMesh.Foundation
open PgMesh.Topology
open PgMesh.Copy
open PgMesh.Copy.Batcher (Reply)
open CopyBatchState (Later BatchersReachable)

variable {ρ κ A Item α ε : Type}

/-! ## The work that is left -/

/-- A group is submitted and awaited; then the call releases the mutex and combines. -/
def CopyCall.work (call : CopyCall Item ρ α ε) : Nat :=
  (call.remaining.map fun group => 7 * group.args.length + 3).sum +
    call.asyncResults.length + 2

/-- A flush awaits at most the requests that its batcher has accepted. -/
def FlushCall.work (batchers : GoMap String (Batcher α ε)) (f : FlushCall) : Nat :=
  (f.remaining.map fun shardName =>
    ((GoMap.get? batchers shardName).map (·.accepted.length)).getD 0 + 4).sum +
    2 * f.flushes.length + 3

/-- The work of the call that holds the mutex. -/
def CopyBatchState.holderWork (st : CopyBatchState Item ρ α ε) : Nat :=
  match st.mu with
  | none => 0
  | some (.copying i) => (st.calls[i]?.map CopyCall.work).getD 0
  | some (.flushing j) => (st.flushes[j]?.map (FlushCall.work st.batchers)).getD 0

def CallPhase.work : CallPhase ε → Nat
  | .combining _ asyncResults _ _ => asyncResults.length + 1
  | _ => 0

def FinishPhase.work : FinishPhase ε → Nat
  | .awaiting => 2
  | .ended _ _ => 1
  | .returned => 0

def AsyncCall.work (c : AsyncCall ε) : Nat := c.phase.work + c.finish.work

/-- Each flush may be polled before it is awaited. -/
def FlushWait.work (w : FlushWait ε) : Nat :=
  2 * w.remaining.length + (!w.polled).toNat + w.result.isNone.toNat

def AsyncStore.work (st : AsyncStore Item ρ α ε) : Nat :=
  GoMap.sum st.copy.batchers Batcher.work + st.copy.holderWork +
    (st.asyncCalls.map AsyncCall.work).sum + (st.waits.map FlushWait.work).sum

/-- The steps that no caller takes. -/
def StoreAction.isOwn : StoreAction Item α ε → Bool
  | .copyAsync _ _ => false
  | .locked .flush => false
  | .wait _ (.cancelContext _) => false
  | _ => true

theorem isCall_eq (action : Action α ε) : isCall action = !action.isOwn := by
  cases action <;> rfl

/-! ## Steps of the batching state -/

namespace CopyBatchState

variable {st st' : CopyBatchState Item ρ α ε}

theorem flushWork_set {batchers : GoMap String (Batcher α ε)} {shardName : String}
    {b b' : Batcher α ε} (hb : GoMap.get? batchers shardName = some b)
    (hsame : b'.accepted = b.accepted) (f : FlushCall) :
    f.work (GoMap.set batchers shardName b') = f.work batchers := by
  unfold FlushCall.work
  congr 3
  refine List.map_congr_left ?_
  intro other _
  rw [GoMap.get?_set]
  split
  · rename_i heq
    rw [← heq, hb, Option.map_some, Option.map_some, hsame]
  · rfl

theorem holderWork_set {shardName : String} {b b' : Batcher α ε}
    (hb : GoMap.get? st.batchers shardName = some b) (hsame : b'.accepted = b.accepted) :
    holderWork { st with batchers := GoMap.set st.batchers shardName b' } = st.holderWork := by
  unfold holderWork
  have hwork : FlushCall.work (GoMap.set st.batchers shardName b') =
      FlushCall.work st.batchers := funext (flushWork_set hb hsame)
  simp only [hwork]

theorem batcherStep_work (hreach : st.BatchersReachable) {shardName : String}
    {action : Action α ε} (hstep : st.batcherStep shardName action = some st') :
    GoMap.sum st'.batchers Batcher.work + st'.holderWork <
      GoMap.sum st.batchers Batcher.work + st.holderWork := by
  unfold CopyBatchState.batcherStep at hstep
  split at hstep
  · cases hstep
  · rename_i hcall
    have hown : action.isOwn = true := by simpa [isCall_eq] using hcall
    split at hstep
    · cases hstep
    · rename_i b hb
      split at hstep
      · cases hstep
      · rename_i b' hb'
        cases hstep
        have hwork := Batcher.own_work (hreach _ b hb).activeInv hown hb'
        have hsum := GoMap.sum_set hb b' Batcher.work
        have hsame : b'.accepted = b.accepted := by
          refine Batcher.accepted_step ?_ hb'
          rintro rows coalesce ctxErr ctxErrLocked rfl
          cases hown
        rw [holderWork_set hb hsame]
        simp only
        omega

theorem submit_work [Named ρ] (hstep : st.submit = some st') :
    GoMap.sum st'.batchers Batcher.work + st'.holderWork <
      GoMap.sum st.batchers Batcher.work + st.holderWork := by
  obtain ⟨i, call, group, remaining, b, b', reply, hmu, hcall, hremaining, hb, hsubmit, rfl⟩ :=
    submit_cases hstep
  have hwork := Batcher.submit_work hsubmit
  have hsum := GoMap.sum_set hb b' Batcher.work
  have hset := List.getElem?_set_self (a := (⟨call.arg, call.groups, remaining,
    call.asyncResults ++ [(group.shard.replicaSetName, reply)]⟩ : CopyCall Item ρ α ε))
    (List.getElem?_eq_some_iff.mp hcall).1
  simp only [holderWork, hmu, hcall, hset, Option.map_some, Option.getD_some, CopyCall.work,
    hremaining, List.map_cons, List.sum_cons, List.length_append, List.length_singleton]
  omega

theorem flushAsync_work (hreach : st.BatchersReachable) {order : List Nat}
    (hstep : st.flushAsync order = some st') :
    GoMap.sum st'.batchers Batcher.work + st'.holderWork <
      GoMap.sum st.batchers Batcher.work + st.holderWork := by
  unfold CopyBatchState.flushAsync at hstep
  split at hstep
  · rename_i j hmu
    split at hstep
    · rename_i callsBefore shardName remaining flushes hflush
      have hj := (List.getElem?_eq_some_iff.mp hflush).1
      split at hstep
      · cases hstep
        simp only [holderWork, hmu, hflush, List.getElem?_set_self hj, Option.map_some,
          Option.getD_some, FlushCall.work, List.map_cons, List.sum_cons]
        omega
      · rename_i b hb
        split at hstep
        · cases hstep
        · rename_i b' hb'
          cases hstep
          have hflushed : b.step (.flushAsync order) = some b' := hb'
          have hsame : b'.accepted = b.accepted := Batcher.accepted_step (by simp) hflushed
          have hwork := Batcher.flushAsync_work hb'
          have hsum := GoMap.sum_set hb b' Batcher.work
          -- The batcher awaits pending requests, which are among the accepted ones.
          have horder : order.length ≤ b.accepted.length := by
            have hinv := (hreach _ b hb).inv
            obtain ⟨-, hperm, -⟩ := Batcher.flushAsync_spec (hreach _ b hb).activeInv hb'
            have hsubset : b.pending ⊆ List.range b.requests.length := fun request hmem =>
              List.mem_range.mpr (hinv.pending.bounded request hmem)
            have hle := (List.subperm_of_subset hinv.pending.nodup hsubset).length_le
            rwa [List.length_range, ← hperm.length_eq, ← hinv.ledger.length] at hle
          simp only [holderWork, hmu, hflush, List.getElem?_set_self hj, Option.map_some,
            Option.getD_some, flushWork_set hb hsame]
          simp only [FlushCall.work, List.map_cons, List.sum_cons, hb, Option.map_some,
            Option.getD_some, List.length_append, List.length_singleton]
          omega
    · cases hstep
  · cases hstep

end CopyBatchState

/-! ## Steps of the goroutines -/

theorem AsyncCall.step_work {q : CopyQuery Item A α} {st : CopyBatchState Item ρ α ε}
    {c c' : AsyncCall ε} {label : CallStep} (hstep : c.step q st label = some c') :
    c'.work < c.work := by
  cases label with
  | awaitPart =>
      change c.awaitPart q st = some c' at hstep
      unfold AsyncCall.awaitPart at hstep
      split at hstep
      · rename_i hphase
        split at hstep
        · cases hstep
        all_goals
          cases hstep
          simp [AsyncCall.work, hphase, CallPhase.work]
      · cases hstep
  | combinedReturns =>
      change c.combinedReturns = some c' at hstep
      unfold AsyncCall.combinedReturns at hstep
      split at hstep
      · rename_i hphase
        split at hstep
        all_goals
          cases hstep
          simp [AsyncCall.work, hphase, CallPhase.work]
      · cases hstep
  | endSpan =>
      change c.endSpan = some c' at hstep
      unfold AsyncCall.endSpan at hstep
      split at hstep
      · rename_i hfinish _
        cases hstep
        simp [AsyncCall.work, hfinish, FinishPhase.work]
      · cases hstep
  | finishReturns =>
      change c.finishReturns = some c' at hstep
      unfold AsyncCall.finishReturns at hstep
      split at hstep
      · rename_i hfinish
        cases hstep
        simp [AsyncCall.work, hfinish, FinishPhase.work]
      · cases hstep

namespace FlushWait

variable {q : CopyQuery Item A α} {st : CopyBatchState Item ρ α ε} {w w' : FlushWait ε}

theorem consume_work (shardName : String) (rest : List (String × Nat))
    (err : Option (GoError ε)) :
    (w.consume q shardName rest err).work ≤ 2 * rest.length + 1 + w.result.isNone.toNat := by
  cases err with
  | none => simp [consume, work]
  | some err =>
      simp only [consume, work]
      split <;> simp

theorem step_work {label : WaitStep ε} (hown : ∀ err, label ≠ .cancelContext err)
    (hstep : w.step q st label = some w') : w'.work < w.work := by
  cases label with
  | poll =>
      change w.poll q st = some w' at hstep
      unfold FlushWait.poll at hstep
      split at hstep
      · rename_i entry rest hpolled hremaining
        split at hstep
        · cases hstep
          simp [work, hpolled]
        · rename_i err _
          cases hstep
          have hconsumed := consume_work (q := q) (w := w) entry.1 rest err
          simp only [work, hpolled, hremaining, List.length_cons, Bool.not_false,
            Bool.toNat_true] at hconsumed ⊢
          omega
      · cases hstep
  | await =>
      change w.await q st = some w' at hstep
      unfold FlushWait.await at hstep
      split at hstep
      · rename_i entry rest hpolled hremaining
        obtain ⟨err, -, rfl⟩ := Option.map_eq_some_iff.mp hstep
        have hconsumed := consume_work (q := q) (w := w) entry.1 rest err
        simp only [work, hpolled, hremaining, List.length_cons, Bool.not_true,
          Bool.toNat_false] at hconsumed ⊢
        omega
      · cases hstep
  | cancelled =>
      change w.cancelled q = some w' at hstep
      unfold FlushWait.cancelled at hstep
      split at hstep
      · rename_i entry rest err hpolled hremaining hctx
        cases hstep
        have hconsumed := consume_work (q := q) (w := w) entry.1 rest (some err)
        simp only [work, hpolled, hremaining, List.length_cons, Bool.not_true,
          Bool.toNat_false] at hconsumed ⊢
        omega
      · cases hstep
  | returns =>
      change w.returns = some w' at hstep
      unfold FlushWait.returns at hstep
      split at hstep
      · rename_i hresult hremaining
        cases hstep
        simp [work, hresult]
      · cases hstep
  | cancelContext err => exact absurd rfl (hown err)

end FlushWait

/-! ## Steps of the store -/

namespace AsyncStore

variable [Named ρ] [Inhabited κ] {s : MeshStore ρ κ A} {q : CopyQuery Item A α}
  {st st' : AsyncStore Item ρ α ε}

omit [Named ρ] in
theorem copyUnlock_work {index : Nat} (hstep : st.copyUnlock index = some st') :
    st'.work < st.work := by
  unfold AsyncStore.copyUnlock at hstep
  split at hstep
  · rename_i i c hmu hc
    split at hstep
    · rename_i own call copy hphase hcall hcopy
      split at hstep
      · cases hstep
        obtain ⟨rfl, -⟩ := CopyBatchState.later_copyUnlock hcopy
        have hsum := sum_map_set hc (c.combine call.asyncResults i) AsyncCall.work
        simp only [AsyncCall.work, AsyncCall.combine, hphase, CallPhase.work] at hsum
        simp only [work, CopyBatchState.holderWork, hmu, hcall, Option.map_some,
          Option.getD_some, CopyCall.work, AsyncCall.combine]
        omega
      · cases hstep
    · cases hstep
  · cases hstep

omit [Named ρ] in
theorem flushUnlock_work (hstep : st.flushUnlock = some st') : st'.work < st.work := by
  unfold AsyncStore.flushUnlock at hstep
  split at hstep
  · rename_i j hmu
    split at hstep
    · rename_i f copy hf hcopy
      cases hstep
      obtain ⟨rfl, -⟩ := CopyBatchState.later_flushUnlock hcopy
      have hstart : (FlushWait.start j f.flushes : FlushWait ε).work =
          2 * f.flushes.length + 2 := rfl
      simp only [work, CopyBatchState.holderWork, hmu, hf, Option.map_some, Option.getD_some,
        FlushCall.work, List.map_append, List.sum_append, List.map_cons, List.map_nil,
        List.sum_cons, List.sum_nil, hstart]
      omega
    · cases hstep
  · cases hstep

theorem locked_work (h : st.Inv s q) {action : AsyncAction Item α ε}
    {copy : CopyBatchState Item ρ α ε} (hsilent : action.silent = true)
    (hown : action ≠ .flush) (hstep : st.copy.step s q action = some copy) :
    work { st with copy := copy } < st.work := by
  have hcopy : GoMap.sum copy.batchers Batcher.work + copy.holderWork <
      GoMap.sum st.copy.batchers Batcher.work + st.copy.holderWork := by
    cases action with
    | copyAsync arg ctxErr => cases hsilent
    | copyUnlock => cases hsilent
    | flushUnlock => cases hsilent
    | flush => exact absurd rfl hown
    | submit => exact CopyBatchState.submit_work hstep
    | flushAsync order => exact CopyBatchState.flushAsync_work h.copy.reachable hstep
    | batcher shardName action => exact CopyBatchState.batcherStep_work h.copy.reachable hstep
  simp only [work]
  omega

theorem own_work (h : st.Inv s q) {action : StoreAction Item α ε}
    (hown : action.isOwn = true) (hstep : st.step s q action = some st') :
    st'.work < st.work := by
  cases action with
  | copyAsync arg ctxErr => cases hown
  | copyUnlock index => exact copyUnlock_work hstep
  | flushUnlock => exact flushUnlock_work hstep
  | locked action =>
      simp only [AsyncStore.step] at hstep
      split at hstep
      · rename_i hsilent
        obtain ⟨copy, hcopy, rfl⟩ := Option.map_eq_some_iff.mp hstep
        refine locked_work h hsilent ?_ hcopy
        rintro rfl
        cases hown
      · cases hstep
  | call index label =>
      simp only [AsyncStore.step] at hstep
      split at hstep
      · cases hstep
      · rename_i c hc
        obtain ⟨c', hc', rfl⟩ := Option.map_eq_some_iff.mp hstep
        have hsum := sum_map_set hc c' AsyncCall.work
        have hwork := AsyncCall.step_work hc'
        simp only [work]
        omega
  | wait index label =>
      simp only [AsyncStore.step] at hstep
      split at hstep
      · cases hstep
      · rename_i w hw
        obtain ⟨w', hw', rfl⟩ := Option.map_eq_some_iff.mp hstep
        have hsum := sum_map_set hw w' FlushWait.work
        have hwork : w'.work < w.work := by
          refine FlushWait.step_work ?_ hw'
          rintro err rfl
          cases hown
        simp only [work]
        omega

/-! ## Rest -/

/-- The flush that holds the mutex is one of the calls of `FlushX`. -/
def FlushHeld (st : CopyBatchState Item ρ α ε) : Prop :=
  ∀ j, st.mu = some (.flushing j) → j < st.flushes.length

theorem FlushHeld.step {copy copy' : CopyBatchState Item ρ α ε} (h : FlushHeld copy)
    {action : AsyncAction Item α ε} (hstep : copy.step s q action = some copy') :
    FlushHeld copy' := by
  cases action with
  | copyAsync arg ctxErr =>
      obtain ⟨⟨next, reply⟩, hcopy, rfl⟩ := Option.map_eq_some_iff.mp hstep
      rcases (CopyBatchState.later_copyAsync hcopy).2 with
        ⟨value, err, -, rfl⟩ | ⟨groups, -, -, -, rfl⟩
      · exact h
      · exact nofun
  | submit =>
      obtain ⟨i, call, group, remaining, b, b', reply, -, -, -, -, -, rfl⟩ :=
        CopyBatchState.submit_cases hstep
      exact h
  | copyUnlock =>
      rw [(CopyBatchState.later_copyUnlock hstep).1]
      exact nofun
  | flush =>
      change copy.flush s = some copy' at hstep
      unfold CopyBatchState.flush at hstep
      split at hstep
      · cases hstep
      · cases hstep
        intro j hj
        cases hj
        simp
  | flushAsync order =>
      change copy.flushAsync order = some copy' at hstep
      unfold CopyBatchState.flushAsync at hstep
      split at hstep
      · split at hstep
        · split at hstep
          · cases hstep
            simpa [FlushHeld] using h
          · split at hstep
            · cases hstep
            · cases hstep
              simpa [FlushHeld] using h
        · cases hstep
      · cases hstep
  | flushUnlock =>
      rw [(CopyBatchState.later_flushUnlock hstep).1]
      exact nofun
  | batcher shardName action =>
      change copy.batcherStep shardName action = some copy' at hstep
      unfold CopyBatchState.batcherStep at hstep
      split at hstep
      · cases hstep
      · split at hstep
        · cases hstep
        · split at hstep
          · cases hstep
          · cases hstep
            exact h

structure RunInv (s : MeshStore ρ κ A) (q : CopyQuery Item A α)
    (st : AsyncStore Item ρ α ε) : Prop where
  inv : st.Inv s q
  waits : st.WaitsInv q
  held : FlushHeld st.copy

theorem lowers (s : MeshStore ρ κ A) (q : CopyQuery Item A α) :
    Lowers (AsyncStore.step (ε := ε) s q) (RunInv s q) work StoreAction.isOwn where
  preserved h hstep := by
    obtain ⟨hinv, hcopy⟩ := h.inv.step hstep
    exact ⟨hinv, h.waits.step h.inv hstep, hcopy.invariant h.held fun hheld hlocked => hheld.step hlocked⟩
  lowers h hown hstep := own_work h.inv hown hstep

/-- No call is under way, and nobody waits. -/
structure Settled (st : AsyncStore Item ρ α ε) : Prop where
  mu : st.copy.mu = none
  batchers : ∀ shardName b, GoMap.get? st.copy.batchers shardName = some b → b.Settled
  calls : ∀ c ∈ st.asyncCalls, c.result.outcome ≠ none ∧ c.spanEnds.length = 1
  waits : ∀ w ∈ st.waits, w.result ≠ none

section Idle

variable (h : st.RunInv s q)
  (hidle : ∀ action : StoreAction Item α ε, action.isOwn = true → st.step s q action = none)
include h hidle

theorem RunInv.batchers_settled {shardName : String} {b : Batcher α ε}
    (hb : GoMap.get? st.copy.batchers shardName = some b) : b.Settled := by
  refine (h.inv.copy.reachable shardName b hb).settled_of_idle ?_
  intro action hown
  have hnone := hidle (.locked (.batcher shardName action)) rfl
  cases hstep : b.step action with
  | none => rfl
  | some b' =>
      simp [AsyncStore.step, AsyncAction.silent, CopyBatchState.step,
        CopyBatchState.batcherStep, isCall_eq, hown, hb, hstep] at hnone

/-- With the batchers at rest, the last `Submit` of a call has returned. -/
theorem RunInv.returned_of_settled (asyncResults : List (String × Reply ε)) :
    st.copy.returned asyncResults = true := by
  unfold CopyBatchState.returned
  split
  · rename_i shardName request _
    cases hb : GoMap.get? st.copy.batchers shardName with
    | none => rfl
    | some b => simp [(h.batchers_settled hidle hb).lock]
  · rfl

theorem RunInv.not_copying (i : Nat) : st.copy.mu ≠ some (.copying i) := by
  intro hmu
  obtain ⟨hlast, -⟩ := h.inv.copy.copying i hmu
  have hlt : i < st.copy.calls.length := by omega
  have hcall := List.getElem?_eq_getElem hlt
  generalize st.copy.calls[i] = call at hcall
  obtain ⟨arg, groups, remaining, asyncResults⟩ := call
  have hreturned := h.returned_of_settled hidle asyncResults
  cases remaining with
  | nil =>
      -- The call releases the mutex.
      obtain ⟨k, c, hc, hi⟩ := h.inv.matched.accepted i hlt
      have hphase := (h.inv.matched.holding c (List.mem_of_getElem? hc) i hi).mpr hmu
      have hnone := hidle (.copyUnlock k) rfl
      simp [AsyncStore.step, AsyncStore.copyUnlock, CopyBatchState.copyUnlock, hmu, hc, hphase,
        hcall, hreturned] at hnone
  | cons group remaining =>
      -- The call submits its next group.
      have hmem := List.mem_of_getElem? hcall
      obtain ⟨submitted, hsplit, -⟩ := h.inv.copy.handed _ hmem
      obtain ⟨groupsByName, hgrouped, hgroups, -⟩ :=
        asyncCopyGroups_ok (h.inv.copy.grouped _ hmem)
      have hgroup : group ∈ populated s.mesh groupsByName := by
        rw [← hgroups, hsplit]
        simp
      obtain ⟨hset, hrows⟩ := mem_populated hgrouped hgroup
      obtain ⟨b, hb⟩ := Option.ne_none_iff_exists'.mp (h.inv.copy.domain _ hset)
      have hlock := (h.batchers_settled hidle hb).lock
      have hnone := hidle (.locked .submit) rfl
      have hname : group.shard.replicaSetName = name group.shard.replicaSet := rfl
      simp [AsyncStore.step, AsyncAction.silent, CopyBatchState.step, CopyBatchState.submit, hmu,
        hcall, hreturned, hname, hb, Batcher.submit, hlock, hrows] at hnone

theorem RunInv.mu_none : st.copy.mu = none := by
  cases hmu : st.copy.mu with
  | none => rfl
  | some holder =>
      cases holder with
      | copying i => exact absurd hmu (h.not_copying hidle i)
      | flushing j =>
          have hlt := h.held j hmu
          have hflush := List.getElem?_eq_getElem hlt
          generalize st.copy.flushes[j] = f at hflush
          obtain ⟨callsBefore, remaining, flushes⟩ := f
          cases remaining with
          | nil =>
              have hnone := hidle .flushUnlock rfl
              simp [AsyncStore.step, AsyncStore.flushUnlock, CopyBatchState.flushUnlock, hmu,
                hflush] at hnone
          | cons shardName remaining =>
              cases hb : GoMap.get? st.copy.batchers shardName with
              | none =>
                  have hnone := hidle (.locked (.flushAsync [])) rfl
                  simp [AsyncStore.step, AsyncAction.silent, CopyBatchState.step,
                    CopyBatchState.flushAsync, hmu, hflush, hb] at hnone
              | some b =>
                  have hsettled := h.batchers_settled hidle hb
                  have hnone := hidle (.locked (.flushAsync [])) rfl
                  simp [AsyncStore.step, AsyncAction.silent, CopyBatchState.step,
                    CopyBatchState.flushAsync, hmu, hflush, hb, Batcher.flushAsync,
                    hsettled.lock, hsettled.pending, List.isPerm] at hnone

/-- The futures of a call that has released the mutex are resolved. -/
theorem RunInv.combined_settled {i : Nat} {call : CopyCall Item ρ α ε}
    (hcall : st.copy.calls[i]? = some call) : st.copy.combined q call ≠ none := by
  refine CopyBatchState.awaitResults_ne_none ?_
  intro result hresult
  obtain ⟨submitted, -, hall⟩ := h.inv.copy.handed call (List.mem_of_getElem? hcall)
  obtain ⟨group, -, -, b, request, hb, hreply, haccepted⟩ := exists_of_mem_right hall hresult
  have hlt := (List.getElem?_eq_some_iff.mp haccepted).1
  simp only [CopyBatchState.awaitResult, hreply, hb, Option.bind_some]
  exact (h.batchers_settled hidle hb).requests request hlt

theorem RunInv.future_settled {k : Nat} {c : AsyncCall ε} (hc : st.asyncCalls[k]? = some c)
    (hstuck : ∀ label, c.step q st.copy label = none) : c.future.outcome ≠ none := by
  have hmem := List.mem_of_getElem? hc
  have hsettling := (h.inv.calls c hmem).settling
  generalize hphase : c.phase = phase, hfuture : c.future.outcome = future at hsettling
  cases hsettling with
  | rejected v => exact Option.some_ne_none v
  | submitting i =>
      have hi : c.phase.call? = some i := by rw [hphase]; rfl
      exact absurd ((h.inv.matched.holding c hmem i hi).mp hphase) (h.not_copying hidle i)
  | @combining i call rest count copyErrors hcall hdone hagrees =>
      have hsettled := h.combined_settled hidle hcall
      rw [← hagrees st.copy (.refl _)] at hsettled
      cases rest with
      | nil =>
          have hnone := hstuck .combinedReturns
          simp only [AsyncCall.step, AsyncCall.combinedReturns, hphase] at hnone
          split at hnone <;> cases hnone
      | cons result rest =>
          have hnone := hstuck .awaitPart
          cases hresult : st.copy.awaitResult result with
          | none => simp [CopyBatchState.awaitResults, hresult] at hsettled
          | some v =>
              obtain ⟨shardCount, err⟩ := v
              cases err <;>
                simp [AsyncCall.step, AsyncCall.awaitPart, hphase, hresult] at hnone
  | combined hcall hdone hv => exact Option.some_ne_none _

theorem RunInv.calls_settled {c : AsyncCall ε} (hmem : c ∈ st.asyncCalls) :
    c.result.outcome ≠ none ∧ c.spanEnds.length = 1 := by
  obtain ⟨k, hc⟩ := List.mem_iff_getElem?.mp hmem
  have hstuck : ∀ label, c.step q st.copy label = none := by
    intro label
    have hnone := hidle (.call k label) rfl
    simpa [AsyncStore.step, hc] using hnone
  obtain ⟨⟨count, err⟩, hfuture⟩ :=
    Option.ne_none_iff_exists'.mp (h.future_settled hidle hc hstuck)
  have hfinishing := (h.inv.calls c hmem).finishing
  rw [hfuture] at hfinishing
  generalize hfinish : c.finish = finish, c.spanEnds = spanEnds,
    c.result.outcome = result at hfinishing
  cases hfinishing with
  | awaiting =>
      have hnone := hstuck .endSpan
      simp [AsyncCall.step, AsyncCall.endSpan, hfinish, Future.await, hfuture] at hnone
  | ended =>
      have hnone := hstuck .finishReturns
      simp [AsyncCall.step, AsyncCall.finishReturns, hfinish] at hnone
  | returned => exact ⟨Option.some_ne_none _, rfl⟩

theorem RunInv.waits_settled {w : FlushWait ε} (hmem : w ∈ st.waits) : w.result ≠ none := by
  intro hopen
  obtain ⟨k, hw⟩ := List.mem_iff_getElem?.mp hmem
  have hstuck : ∀ label : WaitStep ε, (∀ err, label ≠ .cancelContext err) →
      w.step q st.copy label = none := by
    intro label hlabel
    have hown : (StoreAction.wait k label : StoreAction Item α ε).isOwn = true := by
      cases label with
      | cancelContext err => exact absurd rfl (hlabel err)
      | _ => rfl
    have hnone := hidle (.wait k label) hown
    simpa [AsyncStore.step, hw] using hnone
  obtain ⟨f, visited, hwait⟩ := h.waits w hmem
  cases hremaining : w.remaining with
  | nil =>
      have hnone := hstuck .returns (by simp)
      simp [FlushWait.step, FlushWait.returns, hopen, hremaining] at hnone
  | cons entry rest =>
      cases hpolled : w.polled with
      | false =>
          have hnone := hstuck .poll (by simp)
          simp only [FlushWait.step, FlushWait.poll, hpolled, hremaining] at hnone
          split at hnone <;> cases hnone
      | true =>
          rcases hwait.passed with hpassed | ⟨hcancelled, -⟩
          · -- The batcher has returned from the flush.
            have hentry : entry ∈ f.flushes := by
              rw [hpassed, hremaining]
              simp
            obtain ⟨barrier, b, flush, hb, hflush, -⟩ :=
              (h.inv.copy.flushed f (List.mem_of_getElem? hwait.flush)).2 entry hentry
            obtain ⟨v, hv⟩ := Option.ne_none_iff_exists'.mp
              ((h.batchers_settled hidle hb).flushes flush (List.mem_of_getElem? hflush))
            have houtcome : st.copy.flushOutcome entry = some v.2 := by
              simp [CopyBatchState.flushOutcome, hb, hflush, Future.await, hv]
            have hnone := hstuck .await (by simp)
            simp [FlushWait.step, FlushWait.await, hpolled, hremaining, houtcome] at hnone
          · obtain ⟨err, herr⟩ := Option.ne_none_iff_exists'.mp hcancelled
            have hnone := hstuck .cancelled (by simp)
            simp [FlushWait.step, FlushWait.cancelled, hpolled, hremaining, herr] at hnone

theorem RunInv.settled_of_idle : st.Settled :=
  ⟨h.mu_none hidle, fun _ _ hb => h.batchers_settled hidle hb,
    fun _ hc => h.calls_settled hidle hc, fun _ hw => h.waits_settled hidle hw⟩

end Idle

end AsyncStore

section Rest

variable [Named ρ] [Inhabited κ] {s : MeshStore ρ κ A} {q : CopyQuery Item A α}
  {configured : Option CopyBatchConfig} {start : CopyBatchState Item ρ α ε}
  {st : AsyncStore Item ρ α ε}

/--
When no call of `CopyXAsync` or `FlushX` arrives and no context is cancelled, the store
takes at most `st.work` steps.  Where it can take none, no call is under way: each call of
`CopyXAsync` has ended its span and resolved its future, each call of `FlushX` has
returned and the batchers are empty; and from everywhere its own steps lead there.
-/
theorem async_store_comes_to_rest
    (hstart : CopyBatchState.initializeCopyBatchers s q configured = .ok start)
    (hrun : Reaches (AsyncStore.step s q) (.initial start) st) :
    (∀ rest t, (∀ label ∈ rest, label.isOwn = true) →
      runFrom (AsyncStore.step s q) st rest = some t → rest.length + t.work ≤ st.work) ∧
    ((∀ action : StoreAction Item α ε, action.isOwn = true → st.step s q action = none) →
      st.Settled) ∧
    ∃ rest t, (∀ label ∈ rest, label.isOwn = true) ∧
      runFrom (AsyncStore.step s q) st rest = some t ∧ t.Settled := by
  have hlowers := AsyncStore.lowers (ε := ε) s q
  have hmu : start.mu = none := by
    unfold CopyBatchState.initializeCopyBatchers at hstart
    split at hstart
    · cases hstart
    · cases hstart
      rfl
  have hinitial : (AsyncStore.initial start).RunInv s q :=
    ⟨AsyncStore.initial_inv hstart, nofun, by simp [AsyncStore.FlushHeld, AsyncStore.initial, hmu]⟩
  have hinv : st.RunInv s q := hrun.invariant hinitial hlowers.preserved
  refine ⟨fun rest t hown hrest => hlowers.length_le hinv hown hrest, hinv.settled_of_idle, ?_⟩
  obtain ⟨rest, t, hown, hrest, hidle⟩ := hlowers.exists_exhausted hinv
  have hreach : Reaches (AsyncStore.step s q) st t := ⟨rest, hrest⟩
  exact ⟨rest, t, hown, hrest, (hreach.invariant hinv hlowers.preserved).settled_of_idle hidle⟩

end Rest

/-- The two sites, with a flush that waits while one of them copies. -/
theorem async_store_comes_to_rest_two_sites :
    (∃ w ∈ (asyncSites flushTrace).waits, w.result = none) ∧
      ∃ rest t, (∀ label ∈ rest, label.isOwn = true) ∧
        runFrom (AsyncStore.step siteStore siteCopy) (asyncSites flushTrace) rest = some t ∧
        t.Settled := by
  have hrun : Reaches (AsyncStore.step siteStore siteCopy) (.initial sitesStart)
      (asyncSites flushTrace) := ⟨flushTrace, rfl⟩
  refine ⟨⟨⟨0, [("west", 0)], false, some (.external ()), [], none⟩, ?_, rfl⟩, ?_⟩
  · exact List.mem_of_getElem? (i := 0) rfl
  · exact (async_store_comes_to_rest sitesStart_initial hrun).2.2

end PgMesh.Store
