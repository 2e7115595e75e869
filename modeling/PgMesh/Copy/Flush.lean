import PgMesh.Copy.Futures

/-!
# The flush barrier

`FlushAsync` takes the futures of the pending map under the lock.  Its
goroutine awaits them one after the other and collects their errors.
-/

namespace PgMesh.Copy

open PgMesh.Foundation

variable {α ε : Type}

/-- The errors of the requests that a flush has already awaited. -/
def Batcher.errorsOf (s : Batcher α ε) (requests : List Nat) :
    List (GoError ε) :=
  requests.filterMap fun r => (s.outcome r).bind Prod.snd

structure Flush.WellFormed (f : Flush ε) (s : Batcher α ε) : Prop where
  bound : f.barrier ≤ s.requests.length
  before : ∀ r ∈ f.futures, r < f.barrier
  covers : ∀ r < f.barrier, r ∈ f.futures ∨ s.outcome r ≠ none
  awaited : ∃ finished, f.futures = finished ++ f.remaining ∧
    (∀ r ∈ finished, s.outcome r ≠ none) ∧ f.errs = s.errorsOf finished
  returned : ∀ value err, f.result.outcome = some (value, err) →
    f.remaining = [] ∧ err = GoError.join f.errs

namespace Batcher

theorem errorsOf_congr {s s' : Batcher α ε} {requests : List Nat}
    (h : ∀ r ∈ requests, s'.outcome r = s.outcome r) :
    s'.errorsOf requests = s.errorsOf requests := by
  unfold errorsOf
  induction requests with
  | nil => rfl
  | cons r requests ih =>
      have hrest := ih fun r' hr' => h r' (List.mem_cons_of_mem _ hr')
      simp only [List.filterMap_cons, h r List.mem_cons_self, hrest]

end Batcher

open Batcher

/-- A settled future stays as it is, so what a flush has collected stays true. -/
theorem Flush.WellFormed.mono {f : Flush ε} {s s' : Batcher α ε}
    (h : f.WellFormed s) (hlength : s.requests.length ≤ s'.requests.length)
    (hkeep : ∀ r, s'.outcome r = s.outcome r ∨ s.outcome r = none) :
    f.WellFormed s' := by
  obtain ⟨finished, hfutures, hsettled, herrs⟩ := h.awaited
  have hsame : ∀ r, s.outcome r ≠ none → s'.outcome r = s.outcome r := by
    intro r hr
    rcases hkeep r with hsame | hnone
    · exact hsame
    · exact absurd hnone hr
  refine ⟨Nat.le_trans h.bound hlength, h.before, ?_,
    ⟨finished, hfutures, ?_, ?_⟩, h.returned⟩
  · intro r hr
    rcases h.covers r hr with hmem | hsome
    · exact .inl hmem
    · right
      rw [hsame r hsome]
      exact hsome
  · intro r hr
    rw [hsame r (hsettled r hr)]
    exact hsettled r hr
  · rw [herrs, errorsOf_congr fun r hr => hsame r (hsettled r hr)]

namespace Batcher

def FlushInv (s : Batcher α ε) : Prop :=
  ∀ f ∈ s.flushes, f.WellFormed s

theorem requests_length_move {s s' : Batcher α ε} (hmove : Move s s') :
    s.requests.length ≤ s'.requests.length := by
  cases hmove <;> simp [accept]

theorem FlushInv.move {s s' : Batcher α ε} (hinv : s.Inv) (h : s.FlushInv)
    (hmove : Move s s') : s'.FlushInv := by
  have hkeep := outcome_move hmove
  have hlength := requests_length_move hmove
  cases hmove with
  | @flush order free inactive order_perm =>
      intro f hf
      rcases List.mem_append.mp hf with hf | hf
      · exact (h f hf).mono hlength hkeep
      · rw [List.mem_singleton.mp hf]
        refine ⟨Nat.le_refl _, ?_, ?_, ⟨[], rfl, nofun, rfl⟩, nofun⟩
        · intro r hr
          exact hinv.pending.bounded r (order_perm.mem_iff.mp hr)
        · intro r hr
          by_cases hnone : s.outcome r = none
          · left
            exact order_perm.mem_iff.mpr (hinv.pending.covers r hr hnone)
          · right
            exact hnone
  | @awaitFuture k request barrier futures remaining errs result r value err
      waiting found settled =>
      intro f hf
      rcases List.mem_or_eq_of_mem_set hf with hf | rfl
      · exact (h f hf).mono hlength hkeep
      · have hold := h _ (List.mem_of_getElem? waiting)
        obtain ⟨finished, hfutures, hsettled, herrs⟩ := hold.awaited
        have hvalue : s.outcome request = some (value, err) := by
          rw [outcome_of_found found, settled]
        refine ⟨hold.bound, hold.before, hold.covers,
          ⟨finished ++ [request], ?_, ?_, ?_⟩, ?_⟩
        · simpa using hfutures
        · intro r' hr'
          rcases List.mem_append.mp hr' with hr' | hr'
          · exact hsettled r' hr'
          · rw [List.mem_singleton.mp hr']
            change s.outcome request ≠ none
            simp [hvalue]
        · change errs ++ err.toList = s.errorsOf (finished ++ [request])
          rw [show errs = s.errorsOf finished from herrs]
          cases err <;> simp [errorsOf, List.filterMap_append, hvalue]
        · intro value' err' hresult
          have hnil := (hold.returned value' err' hresult).1
          cases hnil
  | @flushReturns k barrier futures errs waiting =>
      intro f hf
      rcases List.mem_or_eq_of_mem_set hf with hf | rfl
      · exact (h f hf).mono hlength hkeep
      · have hold := h _ (List.mem_of_getElem? waiting)
        refine ⟨hold.bound, hold.before, hold.covers, hold.awaited, ?_⟩
        intro value err hresult
        have hpair : ((), GoError.join errs) = (value, err) :=
          Option.some.inj hresult
        exact ⟨rfl, (Prod.mk.inj hpair).2.symm⟩
  | _ => exact fun f hf => (h f hf).mono hlength hkeep

/-- A call of `FlushAsync` keeps its barrier and the futures it has taken. -/
theorem flushes_move {s s' : Batcher α ε} (hmove : Move s s') {k : Nat}
    {f : Flush ε} (hf : s.flushes[k]? = some f) :
    ∃ f', s'.flushes[k]? = some f' ∧ f'.futures = f.futures ∧
      f'.barrier = f.barrier := by
  have hset : ∀ {j : Nat} {old new : Flush ε}, s.flushes[j]? = some old →
      new.futures = old.futures → new.barrier = old.barrier →
        ∃ f', (s.flushes.set j new)[k]? = some f' ∧ f'.futures = f.futures ∧
          f'.barrier = f.barrier := by
    intro j old new hold hfutures hbarrier
    by_cases hjk : j = k
    · subst hjk
      rw [hf] at hold
      cases hold
      exact ⟨new, List.getElem?_set_self (List.getElem?_eq_some_iff.mp hf).1,
        hfutures, hbarrier⟩
    · exact ⟨f, by rw [List.getElem?_set_ne hjk, hf], rfl, rfl⟩
  cases hmove with
  | flush free inactive order_perm =>
      refine ⟨f, ?_, rfl, rfl⟩
      rw [List.getElem?_append_left (List.getElem?_eq_some_iff.mp hf).1]
      exact hf
  | awaitFuture waiting found settled => exact hset waiting rfl rfl
  | flushReturns waiting => exact hset waiting rfl rfl
  | _ => exact ⟨f, hf, rfl, rfl⟩

/-- The critical section of `FlushAsync`. -/
theorem flushAsync_spec {s s' : Batcher α ε} {order : List Nat}
    (h : s.ActiveInv) (hstep : s.flushAsync order = some s') :
    s.lock = none ∧ order.Perm s.pending ∧ s'.active = none ∧
      s'.lock = none ∧ s'.requests = s.requests ∧
      s'.flushes = s.flushes ++
        [⟨s.requests.length, order, order, [], Future.new⟩] := by
  simp only [flushAsync] at hstep
  split at hstep
  · cases hstep
  · rename_i hlock
    split at hstep
    · rename_i horder
      cases hstep
      refine ⟨hlock, List.isPerm_iff.mp horder, ?_⟩
      cases hactive : s.active with
      | none =>
          rw [enqueueActive_of_none hactive]
          obtain ⟨batches, rest, -, heq, -, -⟩ := s.schedule_spec
          rw [heq]
          exact ⟨hactive, hlock, rfl, rfl⟩
      | some batch =>
          obtain ⟨timers, hdetach⟩ :=
            enqueueActive_of_active hactive (h.rows_ne_nil hactive) .manual
          rw [hdetach]
          obtain ⟨batches, rest, -, heq, -, -⟩ :=
            schedule_spec { s with
              active := none
              queue := s.queue ++ [batch.detached .manual]
              timers := timers }
          rw [heq]
          exact ⟨rfl, hlock, rfl, rfl⟩
    · cases hstep

theorem errorsOf_eq_nil {s : Batcher α ε} {requests : List Nat}
    (hsettled : ∀ r ∈ requests, s.outcome r ≠ none) :
    s.errorsOf requests = [] ↔
      ∀ r ∈ requests, ∃ value, s.outcome r = some (value, none) := by
  unfold errorsOf
  rw [List.filterMap_eq_nil_iff]
  apply forall₂_congr
  intro r hr
  cases hr' : s.outcome r with
  | none => exact absurd hr' (hsettled r hr)
  | some v =>
      obtain ⟨value, err⟩ := v
      simp

end Batcher

namespace Reachable

theorem flush_kept {s t : Batcher α ε} (h : Reachable s)
    (hrun : Reaches Batcher.step s t) {k : Nat} {f : Flush ε}
    (hf : s.flushes[k]? = some f) :
    ∃ later, t.flushes[k]? = some later ∧ later.futures = f.futures ∧
      later.barrier = f.barrier := by
  refine h.relation (P := fun _ => True)
    (R := fun s t => ∀ f, s.flushes[k]? = some f →
      ∃ later, t.flushes[k]? = some later ∧ later.futures = f.futures ∧
        later.barrier = f.barrier)
    hrun trivial (fun _ _ _ => trivial) (fun _ f hf => ⟨f, hf, rfl, rfl⟩) ?_ ?_
    f hf
  · intro s t u hst htu f hf
    obtain ⟨f', hf', hfutures, hbarrier⟩ := hst f hf
    obtain ⟨later, hlater, hfutures', hbarrier'⟩ := htu f' hf'
    exact ⟨later, hlater, hfutures'.trans hfutures, hbarrier'.trans hbarrier⟩
  · intro s s' _ _ hmove f hf
    exact flushes_move hmove hf

theorem flushInv {s : Batcher α ε} (h : Reachable s) : s.FlushInv := by
  have hboth := h.invariant (P := fun s => s.Inv ∧ s.FlushInv)
    (fun config => ⟨initial_inv config, nofun⟩)
    fun _ hP hmove => ⟨hP.1.move hmove, hP.2.move hP.1 hmove⟩
  exact hboth.2.2

end Reachable

/--
A flush awaits every request accepted before it that is unresolved, and none
accepted after it.  Right after it there is no active batch.  Its future
resolves only when all the requests it awaits are resolved, without an error
exactly when none of them has one.
-/
theorem flush_is_a_barrier {s s' : Batcher α ε} (h : Reachable s)
    {order : List Nat} (hstep : s.step (.flushAsync order) = some s') :
    s'.active = none ∧
    ∃ flush, s'.flushes = s.flushes ++ [flush] ∧
      flush.result.outcome = none ∧
      (∀ request < s.accepted.length, s.outcome request = none →
        request ∈ flush.futures) ∧
      (∀ request ∈ flush.futures, request < s.accepted.length) ∧
      ∀ t, Reaches Batcher.step s' t →
        ∃ later, t.flushes[s.flushes.length]? = some later ∧
          later.futures = flush.futures ∧
          ∀ err, later.result.outcome = some ((), err) →
            (∀ request ∈ flush.futures, t.outcome request ≠ none) ∧
            (err = none ↔ ∀ request ∈ flush.futures,
              ∃ value, t.outcome request = some (value, none)) := by
  have hinv := h.inv
  have hlength := hinv.ledger.length
  obtain ⟨-, horder, hactive, -, -, hflushes⟩ := flushAsync_spec h.activeInv hstep
  have hreachable : Reachable s' := h.trans (.single hstep)
  refine ⟨hactive, _, hflushes, rfl, ?_, ?_, ?_⟩
  · intro request hlt hopen
    rw [hlength] at hlt
    exact horder.mem_iff.mpr (hinv.pending.covers request hlt hopen)
  · intro request hmem
    rw [hlength]
    exact hinv.pending.bounded request (horder.mem_iff.mp hmem)
  · intro t hrun
    have hk : s'.flushes[s.flushes.length]? =
        some ⟨s.requests.length, order, order, [], Future.new⟩ := by
      rw [hflushes]
      simp
    obtain ⟨later, hlater, hfutures, -⟩ := hreachable.flush_kept hrun hk
    refine ⟨later, hlater, hfutures, ?_⟩
    intro err hresult
    have hflush := (hreachable.trans hrun).flushInv later
      (List.mem_of_getElem? hlater)
    obtain ⟨finished, hsplit, hsettled, herrs⟩ := hflush.awaited
    obtain ⟨hnil, rfl⟩ := hflush.returned () err hresult
    rw [hfutures, hnil, List.append_nil] at hsplit
    rw [hsplit, GoError.join_eq_none, herrs]
    exact ⟨hsettled, errorsOf_eq_nil hsettled⟩

/-! ## A run

The flush of a submission of which one batch fails.
-/

def flushSource : Batcher Nat Unit :=
  (runFrom Batcher.step failedStart (failedTrace.take 4)).getD failedStart

theorem flushSource_reachable : Reachable flushSource :=
  ⟨⟨2, 1, 2⟩, failedStart, rfl, failedTrace.take 4, rfl⟩

def flushTarget : Batcher Nat Unit :=
  (flushSource.step (.flushAsync [0])).getD failedStart

def flushReturned : Batcher Nat Unit :=
  (runFrom Batcher.step flushTarget
    (failedTrace.drop 5 ++ [.awaitFuture 0, .flushReturns 0])).getD failedStart

theorem flush_is_a_barrier_failed :
    flushTarget.active = none ∧ flushReturned.outcome 0 ≠ none ∧
      ¬∃ value, flushReturned.outcome 0 = some (value, none) := by
  have hstep : flushSource.step (.flushAsync [0]) = some flushTarget := rfl
  obtain ⟨hactive, flush, hflushes, -, hcovers, -, hlater⟩ :=
    flush_is_a_barrier flushSource_reachable hstep
  have hmem : 0 ∈ flush.futures := hcovers 0 (by decide) rfl
  obtain ⟨later, hk, -, hreturned⟩ := hlater flushReturned
    ⟨failedTrace.drop 5 ++ [.awaitFuture 0, .flushReturns 0], rfl⟩
  cases hk
  obtain ⟨hsettled, hnil⟩ := hreturned _ rfl
  refine ⟨hactive, hsettled 0 hmem, ?_⟩
  rintro ⟨value, hvalue⟩
  cases hvalue

end PgMesh.Copy
