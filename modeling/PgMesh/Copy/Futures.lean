import PgMesh.Copy.Requests

/-!
# The futures of the requests

`runBatch` resolves a request outside the batcher's lock and removes it from
the pending map later, under the lock.  In between the request is on the list
of completed requests of the goroutine that resolved it.
-/

namespace PgMesh.Copy

open PgMesh.Foundation

variable {α ε : Type}

/-- The requests that this goroutine has resolved and not yet removed from the map. -/
def Runner.completed (r : Runner α ε) : List Nat :=
  match r.phase with
  | .copying => []
  | .finishing _ completed => completed
  | .resolving _ _ _ completed => completed
  | .exited => []

namespace Batcher

/-- What the future of a request holds. -/
def outcome (s : Batcher α ε) (request : Nat) :
    Option (Int64 × Option (GoError ε)) :=
  s.requests[request]?.bind (·.result.await)

theorem outcome_of_found {s : Batcher α ε} {request : Nat} {q : CopyRequest ε}
    (found : s.requests[request]? = some q) :
    s.outcome request = q.result.outcome := by
  rw [outcome, found]
  rfl

theorem outcome_addPart {s s' : Batcher α ε} {k : Nat}
    (hrequests : s'.requests = s.requests.modify k CopyRequest.addPart)
    (request : Nat) :
    s'.outcome request = s.outcome request := by
  rw [outcome, outcome, hrequests, List.getElem?_modify]
  cases s.requests[request]? with
  | none => rfl
  | some q =>
      by_cases hk : k = request
      · simp [hk, CopyRequest.addPart]
      · simp [hk]

theorem outcome_finish {s s' : Batcher α ε} {k : Nat} {q : CopyRequest ε}
    {errs : List (GoError ε)} {pendingParts : Int}
    (found : s.requests[k]? = some q)
    (hrequests : s'.requests = s.requests.set k
      { q with errs := errs, pendingParts := pendingParts }) (request : Nat) :
    s'.outcome request = s.outcome request := by
  rw [outcome, outcome, hrequests]
  by_cases hk : k = request
  · subst hk
    rw [List.getElem?_set_self (List.getElem?_eq_some_iff.mp found).1, found]
    rfl
  · rw [List.getElem?_set_ne hk]

theorem outcome_accept {s : Batcher α ε} {rows : List α} {coalesce : Bool}
    (request : Nat) :
    (s.accept rows coalesce).outcome request = s.outcome request := by
  simp only [outcome, accept]
  by_cases hlt : request < s.requests.length
  · rw [List.getElem?_append_left hlt]
  · rw [List.getElem?_eq_none (by omega : s.requests.length ≤ request)]
    by_cases heq : request = s.requests.length
    · simp [heq, newCopyRequest, Future.await]
    · rw [List.getElem?_eq_none (by simp; omega)]

theorem outcome_resolve {s s' : Batcher α ε} {k : Nat}
    {err : Option (GoError ε)}
    (hrequests : s'.requests = s.requests.modify k (·.resolve err))
    (request : Nat) :
    s'.outcome request = s.outcome request ∨
      (s.outcome request = none ∧ request = k) := by
  rw [outcome, outcome, hrequests, List.getElem?_modify]
  cases hq : s.requests[request]? with
  | none => exact .inl rfl
  | some q =>
      by_cases hk : k = request
      · cases houtcome : q.result.outcome with
        | none => exact .inr ⟨houtcome, hk.symm⟩
        | some v =>
            left
            cases err <;>
              simp [hk, CopyRequest.resolve, Future.await,
                Future.resolve_outcome_of_settled houtcome, houtcome]
      · simp [hk]

theorem outcome_resolve_ne_none {s s' : Batcher α ε} {k : Nat}
    {err : Option (GoError ε)}
    (hrequests : s'.requests = s.requests.modify k (·.resolve err))
    (hlt : k < s.requests.length) : s'.outcome k ≠ none := by
  rw [outcome, hrequests, List.getElem?_modify, List.getElem?_eq_getElem hlt]
  cases houtcome : s.requests[k].result.outcome with
  | none =>
      cases err <;>
        simp [CopyRequest.resolve, Future.await,
          Future.resolve_of_pending houtcome]
  | some v =>
      cases err <;>
        simp [CopyRequest.resolve, Future.await,
          Future.resolve_outcome_of_settled houtcome]

/-- A future changes only when it is resolved, and then only from unresolved. -/
theorem outcome_move {s s' : Batcher α ε} (hmove : Move s s') (request : Nat) :
    s'.outcome request = s.outcome request ∨ s.outcome request = none := by
  cases hmove with
  | accept => exact .inl (outcome_accept request)
  | extend => exact .inl (outcome_addPart rfl request)
  | fill => exact .inl (outcome_addPart rfl request)
  | unbatched => exact .inl (outcome_addPart rfl request)
  | finishPart runner found => exact .inl (outcome_finish found rfl request)
  | finishLast runner found => exact .inl (outcome_finish found rfl request)
  | resolve runner => exact (outcome_resolve rfl request).imp_right And.left
  | _ => exact .inl rfl

structure PendingInv (s : Batcher α ε) : Prop where
  nodup : s.pending.Nodup
  bounded : ∀ request ∈ s.pending, request < s.requests.length
  covers : ∀ request < s.requests.length, s.outcome request = none →
    request ∈ s.pending
  completed : ∀ runner ∈ s.runners, ∀ request ∈ runner.completed,
    s.outcome request ≠ none
  removal : ∀ request ∈ s.pending, s.outcome request ≠ none →
    ∃ runner ∈ s.runners, request ∈ runner.completed

theorem initial_pendingInv (config : BatcherConfig) :
    (Batcher.initial config : Batcher α ε).PendingInv where
  nodup := .nil
  bounded := nofun
  covers := nofun
  completed := nofun
  removal := nofun

theorem PendingInv.congr {s s' : Batcher α ε} (h : s.PendingInv)
    (hpending : s'.pending = s.pending)
    (hlength : s'.requests.length = s.requests.length)
    (houtcome : ∀ request, s'.outcome request = s.outcome request)
    (hrunners : ∀ request, (∃ runner ∈ s'.runners, request ∈ runner.completed) ↔
      ∃ runner ∈ s.runners, request ∈ runner.completed) : s'.PendingInv := by
  refine ⟨hpending ▸ h.nodup, ?_, ?_, ?_, ?_⟩
  · rw [hpending, hlength]
    exact h.bounded
  · intro request hlt hnone
    rw [hpending]
    exact h.covers request (hlength ▸ hlt) (houtcome request ▸ hnone)
  · intro runner hrunner request hr
    rw [houtcome]
    obtain ⟨source, hsource, hmem⟩ :=
      (hrunners request).mp ⟨runner, hrunner, hr⟩
    exact h.completed source hsource request hmem
  · intro request hmem hsettled
    rw [hrunners]
    exact h.removal request (hpending ▸ hmem) (houtcome request ▸ hsettled)

/-- Membership in some list of a table, after one object is replaced. -/
theorem exists_completed_set {runners : List (Runner α ε)} {i : Nat}
    {old next : Runner α ε} (runner : runners[i]? = some old)
    (hcompleted : next.completed = old.completed) (request : Nat) :
    (∃ r ∈ runners.set i next, request ∈ r.completed) ↔
      ∃ r ∈ runners, request ∈ r.completed := by
  rw [← List.mem_flatMap, ← List.mem_flatMap, flatMap_set_of_eq runner hcompleted]

theorem PendingInv.accept {s : Batcher α ε} (h : s.PendingInv) {rows : List α}
    {coalesce : Bool} : (s.accept rows coalesce).PendingInv := by
  have hlength : (s.accept rows coalesce).requests.length =
      s.requests.length + 1 := by
    simp [Batcher.accept]
  have hnone : s.outcome s.requests.length = none := by
    simp [outcome]
  refine ⟨?_, ?_, ?_, ?_, ?_⟩
  · refine List.nodup_append.mpr ⟨h.nodup, List.nodup_singleton _, ?_⟩
    intro request hmem last hlast
    have hbound := h.bounded request hmem
    have hlast := List.mem_singleton.mp hlast
    omega
  · intro request hmem
    rw [hlength]
    rcases List.mem_append.mp hmem with hmem | hmem
    · exact Nat.lt_succ_of_lt (h.bounded request hmem)
    · rw [List.mem_singleton.mp hmem]
      exact Nat.lt_succ_self _
  · intro request hlt hopen
    rw [outcome_accept] at hopen
    rw [hlength] at hlt
    rcases Nat.lt_succ_iff_lt_or_eq.mp hlt with hlt | rfl
    · exact List.mem_append_left _ (h.covers request hlt hopen)
    · exact List.mem_append_right _ List.mem_cons_self
  · intro runner hrunner request hr
    rw [outcome_accept]
    exact h.completed runner hrunner request hr
  · intro request hmem hsettled
    rw [outcome_accept] at hsettled
    rcases List.mem_append.mp hmem with hmem | hmem
    · exact h.removal request hmem hsettled
    · rw [List.mem_singleton.mp hmem] at hsettled
      exact absurd hnone hsettled

/-- The goroutine that resolves a request puts it on its list. -/
theorem PendingInv.resolve {s s' : Batcher α ε} (h : s.PendingInv)
    {i request : Nat} {batch : CopyBatch α}
    {outcome : Option (Int64 × Option (GoError ε))}
    {err : Option (GoError ε)} {remaining completed : List Nat}
    (runner : s.runners[i]? =
      some ⟨batch, outcome, .resolving request err remaining completed⟩)
    (hrunners : s'.runners = s.runners.set i
      ⟨batch, outcome, .finishing remaining (completed ++ [request])⟩)
    (hrequests : s'.requests = s.requests.modify request (·.resolve err))
    (hpending : s'.pending = s.pending) (hsettled : s'.outcome request ≠ none) :
    s'.PendingInv := by
  have hlength : s'.requests.length = s.requests.length := by
    rw [hrequests, List.length_modify]
  have hchange := outcome_resolve hrequests
  have hlists : ∀ other, (∃ r ∈ s'.runners, other ∈ r.completed) ↔
      (∃ r ∈ s.runners, other ∈ r.completed) ∨ other = request := by
    intro other
    obtain ⟨left, right, hold, hnew⟩ := flatMap_set_split runner
      ⟨batch, outcome, .finishing remaining (completed ++ [request])⟩
      Runner.completed
    rw [← List.mem_flatMap, ← List.mem_flatMap, hrunners, hnew, hold]
    simp only [Runner.completed, List.mem_append, List.mem_singleton]
    tauto
  refine ⟨hpending ▸ h.nodup, ?_, ?_, ?_, ?_⟩
  · rw [hpending, hlength]
    exact h.bounded
  · intro other hlt hnone
    rw [hpending]
    refine h.covers other (hlength ▸ hlt) ?_
    rcases hchange other with hsame | ⟨hopen, -⟩
    · rwa [← hsame]
    · exact hopen
  · intro r hr other hmem
    rcases (hlists other).mp ⟨r, hr, hmem⟩ with ⟨source, hsource, hmem⟩ | rfl
    · have hold := h.completed source hsource other hmem
      rcases hchange other with hsame | ⟨hopen, -⟩
      · rwa [hsame]
      · exact absurd hopen hold
    · exact hsettled
  · intro other hmem hother
    rw [hlists]
    rcases hchange other with hsame | ⟨-, heq⟩
    · exact .inl (h.removal other (hpending ▸ hmem) (hsame ▸ hother))
    · exact .inr heq

theorem PendingInv.retire {s s' : Batcher α ε} (h : s.PendingInv) {i : Nat}
    {batch : CopyBatch α} {outcome : Option (Int64 × Option (GoError ε))}
    {completed : List Nat}
    (runner : s.runners[i]? = some ⟨batch, outcome, .finishing [] completed⟩)
    (hrunners : s'.runners = s.runners.set i ⟨batch, outcome, .exited⟩)
    (hrequests : s'.requests = s.requests)
    (hpending : s'.pending = s.pending.filter (· ∉ completed)) :
    s'.PendingInv := by
  have houtcome : ∀ request, s'.outcome request = s.outcome request := by
    intro request
    rw [Batcher.outcome, hrequests, Batcher.outcome]
  have hlists : ∀ other, (∃ r ∈ s.runners, other ∈ r.completed) ↔
      (∃ r ∈ s'.runners, other ∈ r.completed) ∨ other ∈ completed := by
    intro other
    obtain ⟨left, right, hold, hnew⟩ := flatMap_set_split runner
      ⟨batch, outcome, .exited⟩ Runner.completed
    rw [← List.mem_flatMap, ← List.mem_flatMap, hrunners, hnew, hold]
    simp only [Runner.completed, List.mem_append, List.not_mem_nil]
    tauto
  refine ⟨?_, ?_, ?_, ?_, ?_⟩
  · rw [hpending]
    exact h.nodup.filter _
  · intro request hmem
    rw [hpending] at hmem
    rw [hrequests]
    exact h.bounded request (List.mem_of_mem_filter hmem)
  · intro request hlt hopen
    rw [hrequests] at hlt
    rw [houtcome] at hopen
    rw [hpending]
    refine List.mem_filter.mpr ⟨h.covers request hlt hopen, ?_⟩
    -- The goroutine removes only requests that it has resolved.
    have hnot : request ∉ completed := fun hmem =>
      h.completed _ (List.mem_of_getElem? runner) request hmem hopen
    simpa using hnot
  · intro r hr request hmem
    rw [houtcome]
    obtain ⟨source, hsource, hmem⟩ := (hlists request).mpr (.inl ⟨r, hr, hmem⟩)
    exact h.completed source hsource request hmem
  · intro request hmem hsettled
    rw [hpending] at hmem
    obtain ⟨hmem, hnot⟩ := List.mem_filter.mp hmem
    rw [houtcome] at hsettled
    rcases (hlists request).mp (h.removal request hmem hsettled) with hfound | hin
    · exact hfound
    · simp [hin] at hnot

theorem PendingInv.move {s s' : Batcher α ε} (horder : s.OrderInv)
    (hledger : s.LedgerInv) (h : s.PendingInv) (hmove : Move s s') : s'.PendingInv := by
  cases hmove with
  | accept => exact h.accept
  | extend => exact h.congr rfl (by simp) (outcome_addPart rfl) fun _ => Iff.rfl
  | fill => exact h.congr rfl (by simp) (outcome_addPart rfl) fun _ => Iff.rfl
  | unbatched => exact h.congr rfl (by simp) (outcome_addPart rfl) fun _ => Iff.rfl
  | @schedule batches rest free regroup capacity =>
      refine h.congr rfl rfl (fun _ => rfl) fun request => ?_
      rw [← List.mem_flatMap, ← List.mem_flatMap]
      simp [Runner.start, Runner.completed]
  | copyReturns runner =>
      exact h.congr rfl rfl (fun _ => rfl) (exists_completed_set runner rfl)
  | finishPart runner found more =>
      exact h.congr rfl (by simp) (outcome_finish found rfl)
        (exists_completed_set runner rfl)
  | finishLast runner found last =>
      exact h.congr rfl (by simp) (outcome_finish found rfl)
        (exists_completed_set runner rfl)
  | @resolve i request batch outcome err remaining completed runner =>
      have hmember := List.mem_of_getElem? runner
      have hrequest : request ∈ batch.requests :=
        (hledger.runner _ hmember).sublist.subset List.mem_cons_self
      exact h.resolve runner rfl rfl rfl
        (outcome_resolve_ne_none rfl
          (horder.runner_bounded _ hmember request hrequest))
  | retire free runner => exact h.retire runner rfl rfl rfl
  | _ => exact h.congr rfl rfl (fun _ => rfl) fun _ => Iff.rfl

/-- What holds of the requests and their futures in every reachable state. -/
structure Inv (s : Batcher α ε) : Prop where
  order : s.OrderInv
  ledger : s.LedgerInv
  pending : s.PendingInv

theorem initial_inv (config : BatcherConfig) :
    (Batcher.initial config : Batcher α ε).Inv :=
  ⟨initial_orderInv config, initial_ledgerInv config, initial_pendingInv config⟩

theorem Inv.move {s s' : Batcher α ε} (h : s.Inv) (hmove : Move s s') : s'.Inv :=
  ⟨h.order.move hmove, h.ledger.move h.order hmove,
    h.pending.move h.order h.ledger hmove⟩

/-- The batches that hold rows of a request, among those dispatched. -/
def own (s : Batcher α ε) (request : Nat) : List (Runner α ε) :=
  s.runners.filter (request ∈ ·.batch.requests)

/-- Every part of a batch has a row. -/
def PartsInv (s : Batcher α ε) : Prop :=
  ∀ part ∈ (s.dispatched ++ s.waiting).flatMap CopyBatch.parts, part.rows ≠ []

theorem PartsInv.congr {s s' : Batcher α ε} (h : s.PartsInv)
    (hdispatched : s'.dispatched = s.dispatched)
    (hwaiting : s'.waiting = s.waiting) : s'.PartsInv := by
  rw [PartsInv, hdispatched, hwaiting]
  exact h

theorem PartsInv.place {s s' : Batcher α ε} (h : s.PartsInv)
    (hdispatched : s'.dispatched = s.dispatched) {part : CopyPart α}
    (hrows : part.rows ≠ [])
    (hwaiting : (s'.waiting.flatMap CopyBatch.parts).Perm
      (s.waiting.flatMap CopyBatch.parts ++ [part])) : s'.PartsInv := by
  intro p hp
  rw [List.flatMap_append, hdispatched, List.mem_append, hwaiting.mem_iff,
    List.mem_append, List.mem_singleton, ← or_assoc] at hp
  rcases hp with hp | rfl
  · exact h p (by rwa [List.flatMap_append, List.mem_append])
  · exact hrows

theorem PartsInv.move {s s' : Batcher α ε} (h : s.PartsInv)
    (hmove : Move s s') : s'.PartsInv := by
  cases hmove with
  | extend held coalesce nonempty current room =>
      exact h.place rfl nonempty (.of_eq (current.waiting_parts _ _))
  | @fill holder batch timers timers' nextBatch rowCount held coalesce positive
      within current full =>
      have hparts := current.waiting_parts holder.request
        (holder.rows.take rowCount)
      have hrows : holder.rows.take rowCount ≠ [] :=
        List.ne_nil_of_length_pos (by rwa [List.length_take_of_le within])
      refine h.place rfl hrows (.of_eq (Eq.trans ?_ hparts))
      simp [waiting, CopyBatch.detached]
  | unbatched held coalesce nonempty =>
      exact h.place rfl nonempty (unbatched_parts s _)
  | @detach batch reason timers free active cause =>
      intro part hpart
      refine h part ?_
      simpa [waiting, active, CopyBatch.detached, dispatched] using hpart
  | @schedule batches rest free regroup capacity =>
      intro part hpart
      refine h part ?_
      have hqueue := regroup.parts_eq
      simp only [dispatched, waiting, List.map_append, map_batch_start,
        List.flatMap_append] at hpart hqueue ⊢
      rw [← hqueue]
      simpa only [List.append_assoc] using hpart
  | copyReturns runner => exact h.congr (map_batch_set runner rfl) rfl
  | finishPart runner => exact h.congr (map_batch_set runner rfl) rfl
  | finishLast runner => exact h.congr (map_batch_set runner rfl) rfl
  | resolve runner => exact h.congr (map_batch_set runner rfl) rfl
  | retire free runner => exact h.congr (map_batch_set runner rfl) rfl
  | _ => exact h.congr rfl rfl

end Batcher

open Batcher

namespace Reachable

theorem inv {s : Batcher α ε} (h : Reachable s) : s.Inv :=
  (h.invariant initial_inv fun _ => Inv.move).2

/-- A batch lists a request exactly when it holds a row of it. -/
theorem mem_requests_iff {s : Batcher α ε} (h : Reachable s)
    {batch : CopyBatch α} (hbatch : batch ∈ s.dispatched ++ s.waiting)
    (request : Nat) :
    request ∈ batch.requests ↔ ∃ row, (request, row) ∈ batch.tagged := by
  obtain ⟨-, hparts⟩ := h.invariant (P := PartsInv) (fun _ => nofun)
    fun _ => PartsInv.move
  simp only [CopyBatch.requests, CopyBatch.tagged, CopyPart.tagged,
    List.mem_map, List.mem_flatMap]
  constructor
  · rintro ⟨part, hpart, rfl⟩
    obtain ⟨row, rows, hrows⟩ := List.exists_cons_of_ne_nil
      (hparts part (List.mem_flatMap.mpr ⟨batch, hbatch, hpart⟩))
    exact ⟨row, part, hpart, row, by simp [hrows], rfl⟩
  · rintro ⟨row, part, hpart, _, -, heq⟩
    exact ⟨part, hpart, congrArg Prod.fst heq⟩

theorem outcome_stable {s t : Batcher α ε} (h : Reachable s)
    (run : Reaches Batcher.step s t) {request : Nat}
    {v : Int64 × Option (GoError ε)} (hv : s.outcome request = some v) :
    t.outcome request = some v := by
  refine h.relation (P := fun _ => True)
    (R := fun s t => s.outcome request = some v → t.outcome request = some v)
    run trivial (fun _ _ _ => trivial) (fun _ => id) (fun f g => g ∘ f) ?_ hv
  intro s s' _ _ hmove hsome
  rcases outcome_move hmove request with hsame | hnone
  · rw [hsame, hsome]
  · rw [hnone] at hsome
    cases hsome

end Reachable

theorem Runner.err_eq_none_iff {r : Runner α ε} (returned : r.outcome ≠ none) :
    r.err = none ↔
      r.outcome = some (Int64.ofNat r.batch.rows.length, none) := by
  unfold Runner.err
  cases houtcome : r.outcome with
  | none => exact absurd houtcome returned
  | some result =>
      obtain ⟨count, err⟩ := result
      cases err with
      | none => simp [copyError]
      | some err => simp [copyError]

namespace Batcher

theorem own_failures {s : Batcher α ε} {request : Nat}
    (hfinished : ∀ runner ∈ s.runners, request ∉ runner.unfinished) :
    s.failures request = (s.own request).filterMap Runner.err := by
  unfold failures own
  generalize s.runners = runners at hfinished
  induction runners with
  | nil => rfl
  | cons runner runners ih =>
      have hrest := ih fun r hr => hfinished r (List.mem_cons_of_mem _ hr)
      have hhead := hfinished runner List.mem_cons_self
      rw [List.flatMap_cons, hrest]
      by_cases hmem : request ∈ runner.batch.requests
      · cases herr : runner.err <;>
          simp [Runner.failures, hmem, hhead, herr]
      · simp [Runner.failures, hmem]

/-- A request without an open part is in no batch that has not finished it. -/
theorem not_mem_of_openParts {s : Batcher α ε} {request : Nat}
    (hparts : s.openParts.count request = 0) :
    (∀ batch ∈ s.waiting, request ∉ batch.requests) ∧
      ∀ runner ∈ s.runners, request ∉ runner.unfinished := by
  rw [List.count_eq_zero, openParts, List.mem_append, not_or] at hparts
  exact ⟨fun batch hbatch hr =>
      hparts.1 (List.mem_flatMap.mpr ⟨batch, hbatch, hr⟩),
    fun runner hrunner hr =>
      hparts.2 (List.mem_flatMap.mpr ⟨runner, hrunner, hr⟩)⟩

theorem LedgerInv.returned {s : Batcher α ε} (h : s.LedgerInv) {request : Nat}
    (hfinished : ∀ runner ∈ s.runners, request ∉ runner.unfinished) :
    ∀ runner ∈ s.own request, runner.outcome ≠ none := by
  intro runner hrunner hnone
  obtain ⟨hmem, hrequest⟩ := List.mem_filter.mp hrunner
  have hphase := (h.runner runner hmem).returned hnone
  refine hfinished runner hmem ?_
  rw [Runner.unfinished, hphase]
  simpa using hrequest

/-- The verdict of a request, by the outcomes of the batches that held it. -/
theorem Ledger.verdict {s : Batcher α ε} {request : Nat} {q : CopyRequest ε}
    (h : s.Ledger request q)
    (hfinished : ∀ runner ∈ s.runners, request ∉ runner.unfinished)
    (hreturned : ∀ runner ∈ s.own request, runner.outcome ≠ none) :
    ((∀ runner ∈ s.own request,
        runner.outcome = some (Int64.ofNat runner.batch.rows.length, none)) ∧
      q.verdict = (Int64.ofNat q.rowCount, none)) ∨
    ((¬∀ runner ∈ s.own request,
        runner.outcome = some (Int64.ofNat runner.batch.rows.length, none)) ∧
      q.verdict = (0, some (.joined q.errs)) ∧
      q.errs.Perm ((s.own request).filterMap Runner.err)) := by
  have herrs := h.errs
  rw [own_failures hfinished] at herrs
  have hsucceeded : (∀ runner ∈ s.own request,
      runner.outcome = some (Int64.ofNat runner.batch.rows.length, none)) ↔
        q.errs = [] := by
    rw [← List.length_eq_zero_iff, herrs.length_eq, List.length_eq_zero_iff,
      List.filterMap_eq_nil_iff]
    exact forall₂_congr fun runner hrunner =>
      (Runner.err_eq_none_iff (hreturned runner hrunner)).symm
  by_cases hnil : q.errs = []
  · refine .inl ⟨hsucceeded.mpr hnil, ?_⟩
    simp [CopyRequest.verdict, hnil]
  · refine .inr ⟨fun hall => hnil (hsucceeded.mp hall), ?_, herrs⟩
    simp [CopyRequest.verdict, GoError.join_eq_some_of_ne_nil hnil]

/-- A request is resolved once all its rows are placed and all its batches have exited. -/
theorem Inv.settled_of_exited {s : Batcher α ε} (h : s.Inv) {request : Nat}
    (hlt : request < s.accepted.length) (hplaced : ¬s.Unplaced request)
    (hwaiting : ∀ batch ∈ s.waiting, request ∉ batch.requests)
    (hexited : ∀ runner ∈ s.own request, runner.phase = .exited) :
    s.outcome request ≠ none := by
  rw [h.ledger.length] at hlt
  have hq := List.getElem?_eq_getElem hlt
  have hown : ∀ runner ∈ s.runners,
      runner.phase = .exited ∨ request ∉ runner.batch.requests := by
    intro runner hrunner
    by_cases hmem : request ∈ runner.batch.requests
    · exact .inl (hexited runner (List.mem_filter.mpr ⟨hrunner, by simpa using hmem⟩))
    · exact .inr hmem
  rw [outcome_of_found hq]
  cases (h.ledger.ledger request _ hq).stage with
  | waiting _ _ more =>
      rcases more with hopen | hunplaced
      · rw [List.count_pos_iff, openParts, List.mem_append, List.mem_flatMap,
          List.mem_flatMap] at hopen
        rcases hopen with ⟨batch, hbatch, hr⟩ | ⟨runner, hrunner, hr⟩
        · exact absurd hr (hwaiting batch hbatch)
        · rcases hown runner hrunner with hexit | hnot
          · rw [Runner.unfinished, hexit] at hr
            cases hr
          · exact absurd
              ((h.ledger.runner runner hrunner).unfinished_sublist.subset hr) hnot
      · exact absurd hunplaced hplaced
  | resolving _ one_resolving =>
      have hnil : s.resolving request = [] := by
        apply List.flatMap_eq_nil_iff.mpr
        intro runner hrunner
        rcases hown runner hrunner with hexit | hnot
        · rw [Runner.resolving, hexit]
        · exact (h.ledger.runner runner hrunner).resolving_eq_nil hnot
      rw [hnil] at one_resolving
      cases one_resolving
  | settled outcome => simp [outcome]

/-- Nothing is left to do, so every request is resolved and forgotten. -/
theorem Inv.quiescent {s : Batcher α ε} (h : s.Inv) (hactive : s.active = none)
    (hqueue : s.queue = [])
    (hexited : ∀ runner ∈ s.runners, runner.phase.isExited = true)
    (hplaced : ∀ holder ∈ s.lock, holder.rows = []) :
    s.pending = [] ∧ ∀ request < s.accepted.length, s.outcome request ≠ none := by
  have hphase : ∀ runner ∈ s.runners, runner.phase = .exited := by
    intro runner hrunner
    have hexit := hexited runner hrunner
    cases hp : runner.phase <;> simp_all [RunPhase.isExited]
  have hsettled : ∀ request < s.accepted.length, s.outcome request ≠ none := by
    intro request hlt
    apply h.settled_of_exited hlt
    · rintro ⟨holder, held, -, hrows⟩
      exact hrows (hplaced holder held)
    · simp [waiting, hactive, hqueue]
    · intro runner hrunner
      exact hphase runner (List.mem_of_mem_filter hrunner)
  refine ⟨List.eq_nil_iff_forall_not_mem.mpr ?_, hsettled⟩
  intro request hmem
  have hlt := h.pending.bounded request hmem
  rw [← h.ledger.length] at hlt
  obtain ⟨runner, hrunner, hcompleted⟩ :=
    h.pending.removal request hmem (hsettled request hlt)
  rw [Runner.completed, hphase runner hrunner] at hcompleted
  exact List.not_mem_nil hcompleted

/-- A resolved request all of whose batches succeeded has the count of its rows. -/
theorem Inv.outcome_of_success {s : Batcher α ε} (h : s.Inv) {request : Nat}
    {submission : Submission α}
    (hsubmission : s.accepted[request]? = some submission)
    (hresolved : s.outcome request ≠ none)
    (hsuccess : ∀ runner ∈ s.own request,
      runner.outcome = some (Int64.ofNat runner.batch.rows.length, none)) :
    s.outcome request =
      some (Int64.ofNat submission.rows.length, none) := by
  have hlt : request < s.requests.length := by
    rw [← h.ledger.length]
    exact (List.getElem?_eq_some_iff.mp hsubmission).1
  have hq := List.getElem?_eq_getElem hlt
  have hledger := h.ledger.ledger request _ hq
  rw [outcome_of_found hq] at hresolved ⊢
  obtain ⟨houtcome, no_parts, -⟩ := hledger.stage.settled_of_outcome hresolved
  obtain ⟨-, hfinished⟩ := not_mem_of_openParts no_parts
  have hcount := hledger.rowCount
  rw [hsubmission] at hcount
  rcases hledger.verdict hfinished (h.ledger.returned hfinished) with
    ⟨-, hverdict⟩ | ⟨hfailed, -⟩
  · rw [houtcome, hverdict, ← Option.some.inj hcount]
  · exact absurd hsuccess hfailed

end Batcher

/--
In every reachable state the part count of a request is the number of its
unfinished batch memberships.  At most one goroutine is about to resolve a
request, and then its future is unresolved.  A resolved future keeps its
value; all batches with rows of the request have finished it, and the value
is decided by what those batches returned.  When nothing is left to do, every
accepted request is resolved and the pending map is empty.
-/
theorem futures_settled_by_own_batches {s : Batcher α ε} (h : Reachable s) :
    (∀ batch ∈ s.dispatched ++ s.waiting, ∀ request,
      request ∈ batch.requests ↔ ∃ row, (request, row) ∈ batch.tagged) ∧
    (∀ request submission, s.accepted[request]? = some submission →
      ∃ q : CopyRequest ε, s.requests[request]? = some q ∧
        q.pendingParts = s.openParts.count request ∧
        (s.resolving request).length ≤ 1 ∧
        (s.resolving request ≠ [] → s.outcome request = none) ∧
        ∀ value err, s.outcome request = some (value, err) →
          (∀ t, Reaches Batcher.step s t →
            t.outcome request = some (value, err)) ∧
          (∀ holder ∈ s.lock, holder.request = request → holder.rows = []) ∧
          (∀ batch ∈ s.waiting, request ∉ batch.requests) ∧
          (∀ runner ∈ s.own request,
            runner.outcome ≠ none ∧ request ∉ runner.unfinished) ∧
          ((value, err) = (Int64.ofNat submission.rows.length, none) ↔
            ∀ runner ∈ s.own request,
              runner.outcome =
                some (Int64.ofNat runner.batch.rows.length, none)) ∧
          ((¬∀ runner ∈ s.own request,
              runner.outcome =
                some (Int64.ofNat runner.batch.rows.length, none)) →
            ∃ errs, errs.Perm ((s.own request).filterMap Runner.err) ∧
              (value, err) = (0, some (.joined errs)))) ∧
    (s.active = none → s.queue = [] →
      (∀ runner ∈ s.runners, runner.phase.isExited = true) →
      (∀ holder ∈ s.lock, holder.rows = []) →
      s.pending = [] ∧
        ∀ request < s.accepted.length, s.outcome request ≠ none) := by
  have hinv := h.inv
  refine ⟨fun batch hbatch => h.mem_requests_iff hbatch, ?_, hinv.quiescent⟩
  intro request submission hsubmission
  have hlt : request < s.requests.length := by
    rw [← hinv.ledger.length]
    exact (List.getElem?_eq_some_iff.mp hsubmission).1
  have hq := List.getElem?_eq_getElem hlt
  generalize s.requests[request] = q at hq
  have hledger := hinv.ledger.ledger request q hq
  have houtcome := outcome_of_found hq
  refine ⟨q, hq, hledger.parts, hledger.stage.length_resolving_le, ?_, ?_⟩
  · intro hresolving
    rw [houtcome]
    exact hledger.stage.pending_of_resolving hresolving
  · intro value err hvalue
    rw [houtcome] at hvalue
    have hrowCount : q.rowCount = submission.rows.length := by
      have hcount := hledger.rowCount
      rw [hsubmission] at hcount
      exact (Option.some.inj hcount).symm
    obtain ⟨hsettled, no_parts, placed⟩ :=
      hledger.stage.settled_of_outcome (by simp [hvalue])
    obtain ⟨hwaiting, hfinished⟩ := not_mem_of_openParts no_parts
    have hreturned := hinv.ledger.returned hfinished
    have hverdict : q.verdict = (value, err) :=
      Option.some.inj (hsettled.symm.trans hvalue)
    refine ⟨?_, ?_, hwaiting, ?_, ?_⟩
    · intro t run
      exact h.outcome_stable run (by rw [houtcome, hvalue])
    · intro holder held hrequest
      by_contra hrows
      exact placed ⟨holder, held, hrequest, hrows⟩
    · intro runner hrunner
      exact ⟨hreturned runner hrunner,
        hfinished runner (List.mem_of_mem_filter hrunner)⟩
    · rw [← hverdict, ← hrowCount]
      rcases hledger.verdict hfinished hreturned with
        ⟨hall, hsuccess⟩ | ⟨hfail, hjoined, hperm⟩
      · exact ⟨⟨fun _ => hall, fun _ => hsuccess⟩, fun hnot => absurd hall hnot⟩
      · refine ⟨⟨fun hsuccess => ?_, fun hall => absurd hall hfail⟩,
          fun _ => ⟨q.errs, hperm, hjoined⟩⟩
        rw [hjoined] at hsuccess
        exact nomatch (Prod.mk.inj hsuccess).2

/-! ## A run

A submission of three rows is split between two batches, one of which fails.
-/

def failedStart : Batcher Nat Unit :=
  Batcher.initial (CopyBatchConfig.accepted ⟨2, 1, 2⟩ (ε := Unit) rfl)

def failedTrace : List (Action Nat Unit) :=
  [.submit [1, 2, 3] true none none, .place, .place, .unlock, .flushAsync [0],
   .copyReturns 1 0 (some (.external ())), .finishPart 1, .complete 1,
   .copyReturns 0 2 none, .finishPart 0, .resolve 0, .complete 0]

def failedState : Batcher Nat Unit :=
  (runFrom Batcher.step failedStart failedTrace).getD failedStart

theorem failedState_reachable : Reachable failedState :=
  ⟨⟨2, 1, 2⟩, failedStart, rfl, failedTrace, rfl⟩

theorem futures_settled_by_own_batches_failed :
    failedState.outcome 0 = some (0, some (.joined [.external ()])) ∧
      ∀ t, Reaches Batcher.step failedState t →
        t.outcome 0 = some (0, some (.joined [.external ()])) := by
  obtain ⟨q, -, -, -, -, hvalue⟩ :=
    (futures_settled_by_own_batches failedState_reachable).2.1 0
      ⟨[1, 2, 3], true⟩ rfl
  exact ⟨rfl, (hvalue 0 _ rfl).1⟩

end PgMesh.Copy
