import PgMesh.Copy.Order

/-!
# The ledger of one request

A request stays open while one of its parts is unfinished or while `submit`
still has rows to place.  The goroutine that finishes the last part resolves
the future, once, with the errors of the batches that held the request.
-/

namespace PgMesh.Copy

open PgMesh.Foundation

variable {α ε : Type}

namespace Runner

/-- The requests whose part in this batch is not finished yet. -/
def unfinished (r : Runner α ε) : List Nat :=
  match r.phase with
  | .copying => r.batch.requests
  | .finishing remaining _ => remaining
  | .resolving _ _ remaining _ => remaining
  | .exited => []

/-- The error with which this goroutine is about to resolve a request. -/
def resolving (r : Runner α ε) (request : Nat) : List (Option (GoError ε)) :=
  match r.phase with
  | .resolving current err _ _ => if current = request then [err] else []
  | _ => []

/-- The error that this goroutine has reported to a request. -/
def failures (r : Runner α ε) (request : Nat) : List (GoError ε) :=
  if request ∈ r.batch.requests ∧ request ∉ r.unfinished then r.err.toList
  else []

/-- The request that this goroutine resolves, and the requests after it. -/
def ahead (r : Runner α ε) : List Nat :=
  match r.phase with
  | .resolving request _ remaining _ => request :: remaining
  | _ => r.unfinished

structure WellFormed (r : Runner α ε) : Prop where
  sublist : r.ahead.Sublist r.batch.requests
  returned : r.outcome = none → r.phase = .copying

theorem WellFormed.unfinished_sublist {r : Runner α ε} (h : r.WellFormed) :
    r.unfinished.Sublist r.batch.requests := by
  refine List.Sublist.trans ?_ h.sublist
  unfold ahead unfinished
  cases r.phase with
  | resolving request err remaining completed => exact List.sublist_cons_self _ _
  | _ => exact .refl _

theorem start_wellFormed (batch : CopyBatch α) :
    (Runner.start batch : Runner α ε).WellFormed :=
  ⟨.refl _, fun _ => rfl⟩

theorem WellFormed.resolving_eq_nil {r : Runner α ε} (h : r.WellFormed) {request : Nat}
    (hrequest : request ∉ r.batch.requests) : r.resolving request = [] := by
  have hsublist := h.sublist
  unfold ahead at hsublist
  unfold resolving
  cases hphase : r.phase with
  | resolving current err remaining completed =>
      rw [hphase] at hsublist
      have hmem : current ∈ r.batch.requests := hsublist.subset List.mem_cons_self
      refine if_neg ?_
      rintro rfl
      exact hrequest hmem
  | _ => rfl

end Runner

/-- What a request resolves to, by the errors of its parts. -/
def CopyRequest.verdict (q : CopyRequest ε) : Int64 × Option (GoError ε) :=
  match GoError.join q.errs with
  | some err => (0, some err)
  | none => (Int64.ofNat q.rowCount, none)

theorem CopyRequest.resolve_outcome {q : CopyRequest ε}
    (h : q.result.outcome = none) :
    (q.resolve (GoError.join q.errs)).result.outcome = some q.verdict := by
  unfold resolve verdict
  cases GoError.join q.errs with
  | none => exact Future.resolve_of_pending h _ _
  | some err => exact Future.resolve_of_pending h _ _

@[simp] theorem CopyRequest.resolve_errs (q : CopyRequest ε)
    (err : Option (GoError ε)) : (q.resolve err).errs = q.errs := by
  cases err <;> rfl

@[simp] theorem CopyRequest.resolve_rowCount (q : CopyRequest ε)
    (err : Option (GoError ε)) : (q.resolve err).rowCount = q.rowCount := by
  cases err <;> rfl

@[simp] theorem CopyRequest.resolve_pendingParts (q : CopyRequest ε)
    (err : Option (GoError ε)) :
    (q.resolve err).pendingParts = q.pendingParts := by
  cases err <;> rfl

/--
The life of a request: parts are open or rows are unplaced; then one
goroutine is about to resolve it; then it is resolved.
-/
inductive Stage (q : CopyRequest ε) (unplaced : Prop) (parts : Nat)
    (resolving : List (Option (GoError ε))) : Prop
  | waiting (pending : q.result.outcome = none) (none_resolving : resolving = [])
      (more : 0 < parts ∨ unplaced)
  | resolving (pending : q.result.outcome = none)
      (one_resolving : resolving = [GoError.join q.errs]) (no_parts : parts = 0)
      (placed : ¬unplaced)
  | settled (outcome : q.result.outcome = some q.verdict)
      (none_resolving : resolving = []) (no_parts : parts = 0)
      (placed : ¬unplaced)

theorem Stage.waiting_of_more {q : CopyRequest ε} {unplaced : Prop}
    {parts : Nat} {resolving : List (Option (GoError ε))}
    (h : Stage q unplaced parts resolving) (more : 0 < parts ∨ unplaced) :
    q.result.outcome = none ∧ resolving = [] := by
  cases h with
  | waiting pending none_resolving => exact ⟨pending, none_resolving⟩
  | resolving _ _ no_parts placed =>
      rcases more with hparts | hunplaced
      · omega
      · exact absurd hunplaced placed
  | settled _ _ no_parts placed =>
      rcases more with hparts | hunplaced
      · omega
      · exact absurd hunplaced placed

theorem Stage.length_resolving_le {q : CopyRequest ε} {unplaced : Prop}
    {parts : Nat} {resolving : List (Option (GoError ε))}
    (h : Stage q unplaced parts resolving) : resolving.length ≤ 1 := by
  cases h with
  | waiting _ none_resolving => simp [none_resolving]
  | resolving _ one_resolving => simp [one_resolving]
  | settled _ none_resolving => simp [none_resolving]

theorem Stage.pending_of_resolving {q : CopyRequest ε} {unplaced : Prop}
    {parts : Nat} {resolving : List (Option (GoError ε))}
    (h : Stage q unplaced parts resolving) (hresolving : resolving ≠ []) :
    q.result.outcome = none := by
  cases h with
  | waiting pending => exact pending
  | resolving pending => exact pending
  | settled _ none_resolving => exact absurd none_resolving hresolving

/-- A resolved request has its verdict, and nothing of it is left. -/
theorem Stage.settled_of_outcome {q : CopyRequest ε} {unplaced : Prop}
    {parts : Nat} {resolving : List (Option (GoError ε))}
    (h : Stage q unplaced parts resolving) (houtcome : q.result.outcome ≠ none) :
    q.result.outcome = some q.verdict ∧ parts = 0 ∧ ¬unplaced := by
  cases h with
  | waiting pending => exact absurd pending houtcome
  | resolving pending => exact absurd pending houtcome
  | settled outcome _ no_parts placed => exact ⟨outcome, no_parts, placed⟩

namespace Batcher

/-- The batch memberships that are not finished, one entry for each. -/
def openParts (s : Batcher α ε) : List Nat :=
  s.waiting.flatMap CopyBatch.requests ++ s.runners.flatMap Runner.unfinished

def resolving (s : Batcher α ε) (request : Nat) :
    List (Option (GoError ε)) :=
  s.runners.flatMap (·.resolving request)

def failures (s : Batcher α ε) (request : Nat) : List (GoError ε) :=
  s.runners.flatMap (·.failures request)

/-- `submit` still has rows of this request to place. -/
def Unplaced (s : Batcher α ε) (request : Nat) : Prop :=
  ∃ holder ∈ s.lock, holder.request = request ∧ holder.rows ≠ []

structure Ledger (s : Batcher α ε) (request : Nat) (q : CopyRequest ε) :
    Prop where
  rowCount : s.accepted[request]?.map (·.rows.length) = some q.rowCount
  parts : q.pendingParts = s.openParts.count request
  errs : q.errs.Perm (s.failures request)
  stage : Stage q (s.Unplaced request) (s.openParts.count request)
    (s.resolving request)

structure LedgerInv (s : Batcher α ε) : Prop where
  length : s.accepted.length = s.requests.length
  runner : ∀ runner ∈ s.runners, runner.WellFormed
  ledger : ∀ request q, s.requests[request]? = some q → s.Ledger request q

theorem initial_ledgerInv (config : BatcherConfig) :
    (Batcher.initial config : Batcher α ε).LedgerInv where
  length := rfl
  runner := nofun
  ledger := by simp [Batcher.initial]

theorem Ledger.congr {s s' : Batcher α ε} {request : Nat} {q : CopyRequest ε}
    (h : s.Ledger request q) (haccepted : s'.accepted[request]? = s.accepted[request]?)
    (hparts : s'.openParts.count request = s.openParts.count request)
    (hfailures : (s.failures request).Perm (s'.failures request))
    (hresolving : s'.resolving request = s.resolving request)
    (hunplaced : s'.Unplaced request ↔ s.Unplaced request) :
    s'.Ledger request q := by
  refine ⟨haccepted ▸ h.rowCount, hparts ▸ h.parts, h.errs.trans hfailures, ?_⟩
  rw [hparts, hresolving, propext hunplaced]
  exact h.stage

/-- Invariance of the ledger of every request when the requests stay the same. -/
theorem LedgerInv.congr {s s' : Batcher α ε} (h : s.LedgerInv)
    (hrequests : s'.requests = s.requests) (haccepted : s'.accepted = s.accepted)
    (hrunner : ∀ runner ∈ s'.runners, runner.WellFormed)
    (hparts : s'.openParts.Perm s.openParts)
    (hfailures : ∀ request, s'.failures request = s.failures request)
    (hresolving : ∀ request, s'.resolving request = s.resolving request)
    (hunplaced : ∀ request, s'.Unplaced request ↔ s.Unplaced request) :
    s'.LedgerInv := by
  refine ⟨by rw [haccepted, hrequests, h.length], hrunner, ?_⟩
  intro request q hq
  rw [hrequests] at hq
  exact (h.ledger request q hq).congr (by rw [haccepted]) (hparts.count_eq request)
    (.of_eq (hfailures request).symm) (hresolving request) (hunplaced request)

theorem flatMap_requests (batches : List (CopyBatch α)) :
    batches.flatMap CopyBatch.requests =
      (batches.flatMap CopyBatch.parts).map CopyPart.request := by
  rw [List.map_flatMap]
  rfl

/-- The lock holder adds a part. -/
theorem LedgerInv.place {s s' : Batcher α ε} (h : s.LedgerInv)
    {holder : Submitting α} (held : s.lock = some holder)
    (nonempty : holder.rows ≠ []) {taken rows : List α}
    (hlock : s'.lock = some { holder with rows := rows })
    (haccepted : s'.accepted = s.accepted) (hrunners : s'.runners = s.runners)
    (hrequests : s'.requests =
      s.requests.modify holder.request CopyRequest.addPart)
    (hwaiting : (s'.waiting.flatMap CopyBatch.parts).Perm
      (s.waiting.flatMap CopyBatch.parts ++ [⟨holder.request, taken⟩])) :
    s'.LedgerInv := by
  have hcount : ∀ request, s'.openParts.count request =
      s.openParts.count request + [holder.request].count request := by
    intro request
    have hmap := (hwaiting.map CopyPart.request).count_eq request
    rw [List.map_append, List.count_append] at hmap
    simp only [openParts, flatMap_requests, hrunners, List.count_append, hmap,
      List.map_cons, List.map_nil]
    omega
  have hfailures : ∀ request, s'.failures request = s.failures request := by
    simp [failures, hrunners]
  have hresolving : ∀ request, s'.resolving request = s.resolving request := by
    simp [resolving, hrunners]
  refine ⟨by rw [haccepted, hrequests, List.length_modify, h.length],
    hrunners ▸ h.runner, ?_⟩
  intro request q' hq'
  rw [hrequests, List.getElem?_modify] at hq'
  obtain ⟨q, hq, rfl⟩ := Option.map_eq_some_iff.mp hq'
  have hledger := h.ledger request q hq
  by_cases hreq : holder.request = request
  · subst hreq
    obtain ⟨hpending, hnone⟩ := hledger.stage.waiting_of_more
      (.inr ⟨holder, held, rfl, nonempty⟩)
    rw [if_pos rfl]
    refine ⟨haccepted ▸ hledger.rowCount, ?_, ?_, ?_⟩
    · rw [hcount, CopyRequest.addPart, hledger.parts]
      simp
    · rw [hfailures]
      exact hledger.errs
    · refine .waiting hpending (by rw [hresolving, hnone]) (.inl ?_)
      rw [hcount]
      simp
  · rw [if_neg hreq]
    refine hledger.congr (by rw [haccepted]) ?_ (.of_eq (hfailures request).symm)
      (hresolving request) ?_
    · rw [hcount, List.count_singleton, beq_false_of_ne hreq]
      simp
    · simp [Unplaced, held, hlock, hreq]

/-- The goroutine after the locked half of `finishPart`. -/
def finishedPart (batch : CopyBatch α)
    (outcome : Option (Int64 × Option (GoError ε))) (request : Nat)
    (r : CopyRequest ε) (remaining completed : List Nat) : Runner α ε :=
  ⟨batch, outcome,
    if r.pendingParts - 1 = 0 then
      .resolving request
        (GoError.join (r.errs ++ (Runner.err ⟨batch, outcome, .copying⟩).toList))
        remaining completed
    else .finishing remaining completed⟩

section Finish

variable {batch : CopyBatch α} {outcome : Option (Int64 × Option (GoError ε))}
  {request : Nat} {r : CopyRequest ε} {remaining completed : List Nat}

theorem finishedPart_unfinished :
    (finishedPart batch outcome request r remaining completed).unfinished =
      remaining := by
  unfold finishedPart Runner.unfinished
  by_cases hlast : r.pendingParts - 1 = 0 <;> simp [hlast]

theorem finishedPart_resolving (other : Nat) :
    (finishedPart batch outcome request r remaining completed).resolving other =
      if request = other ∧ r.pendingParts - 1 = 0 then
        [GoError.join (r.errs ++ (Runner.err ⟨batch, outcome, .copying⟩).toList)]
      else [] := by
  unfold finishedPart Runner.resolving
  by_cases hlast : r.pendingParts - 1 = 0 <;> simp [hlast]

theorem finishedPart_wellFormed
    (h : Runner.WellFormed (⟨batch, outcome,
      .finishing (request :: remaining) completed⟩ : Runner α ε)) :
    (finishedPart batch outcome request r remaining completed).WellFormed := by
  obtain ⟨hsublist, hreturned⟩ := h
  unfold finishedPart
  by_cases hlast : r.pendingParts - 1 = 0
  · rw [if_pos hlast]
    exact ⟨hsublist, fun hnone => nomatch hreturned hnone⟩
  · rw [if_neg hlast]
    exact ⟨(List.sublist_cons_self _ _).trans hsublist,
      fun hnone => nomatch hreturned hnone⟩

theorem finishedPart_failures (other : Nat) :
    (finishedPart batch outcome request r remaining completed).failures other =
      if other ∈ batch.requests ∧ other ∉ remaining then
        (Runner.err ⟨batch, outcome, .copying⟩).toList
      else [] := by
  rw [Runner.failures, finishedPart_unfinished]
  rfl

variable {s s' : Batcher α ε} {i : Nat}

theorem finish_count
    (runner : s.runners[i]? =
      some ⟨batch, outcome, .finishing (request :: remaining) completed⟩)
    (hrunners : s'.runners = s.runners.set i
      (finishedPart batch outcome request r remaining completed))
    (hwaiting : s'.waiting = s.waiting) (other : Nat) :
    s'.openParts.count other + [request].count other =
      s.openParts.count other := by
  have hset := count_flatMap_set runner
    (finishedPart batch outcome request r remaining completed)
    Runner.unfinished other
  rw [finishedPart_unfinished] at hset
  simp only [Runner.unfinished, ← List.singleton_append (l := remaining),
    List.count_append] at hset
  simp only [openParts, hwaiting, hrunners, List.count_append]
  omega

/-- The ledger of the request whose part is finished. -/
theorem Ledger.finish
    (runner : s.runners[i]? =
      some ⟨batch, outcome, .finishing (request :: remaining) completed⟩)
    (hrunners : s'.runners = s.runners.set i
      (finishedPart batch outcome request r remaining completed))
    (hwaiting : s'.waiting = s.waiting) (haccepted : s'.accepted = s.accepted)
    (hplaced : ¬s'.Unplaced request) (hrequest : request ∈ batch.requests)
    (hnot : request ∉ remaining) (h : s.Ledger request r) :
    s'.Ledger request { r with
      errs := r.errs ++ (Runner.err ⟨batch, outcome, .copying⟩).toList
      pendingParts := r.pendingParts - 1 } := by
  have hcount := finish_count runner hrunners hwaiting request
  rw [List.count_singleton_self] at hcount
  obtain ⟨hpending, hnone⟩ := h.stage.waiting_of_more (.inl (by omega))
  have hparts : r.pendingParts - 1 = s'.openParts.count request := by
    rw [h.parts]
    omega
  refine ⟨haccepted ▸ h.rowCount, hparts, ?_, ?_⟩
  · obtain ⟨left, right, hold, hnew⟩ := flatMap_set_split runner
      (finishedPart batch outcome request r remaining completed)
      (·.failures request)
    have hbefore : s.failures request = left ++ right := by
      rw [failures, hold]
      simp [Runner.failures, Runner.unfinished]
    rw [failures, hrunners, hnew, finishedPart_failures,
      if_pos ⟨hrequest, hnot⟩, List.append_assoc]
    refine (h.errs.append_right _).trans ?_
    rw [hbefore, List.append_assoc]
    exact List.perm_append_comm.append_left left
  · obtain ⟨left, right, hold, hnew⟩ := flatMap_set_split runner
      (finishedPart batch outcome request r remaining completed)
      (·.resolving request)
    -- No other goroutine is resolving the request.
    rw [resolving, hold] at hnone
    obtain ⟨hleft, hright⟩ := List.append_eq_nil_iff.mp hnone
    obtain ⟨rfl, -⟩ := List.append_eq_nil_iff.mp hleft
    rw [resolving, hrunners, hnew, hright, List.append_nil, List.nil_append,
      finishedPart_resolving]
    by_cases hlast : r.pendingParts - 1 = 0
    · rw [if_pos ⟨rfl, hlast⟩]
      exact .resolving hpending rfl (by omega) hplaced
    · rw [if_neg (fun hand => hlast hand.2)]
      exact .waiting hpending rfl (.inl (by omega))

/-- A goroutine finishes the part of one request. -/
theorem LedgerInv.finish (h : s.LedgerInv) (horder : s.OrderInv)
    (runner : s.runners[i]? =
      some ⟨batch, outcome, .finishing (request :: remaining) completed⟩)
    (found : s.requests[request]? = some r)
    (hrunners : s'.runners = s.runners.set i
      (finishedPart batch outcome request r remaining completed))
    (hrequests : s'.requests = s.requests.set request
      { r with
        errs := r.errs ++ (Runner.err ⟨batch, outcome, .copying⟩).toList
        pendingParts := r.pendingParts - 1 })
    (hwaiting : s'.waiting = s.waiting) (haccepted : s'.accepted = s.accepted)
    (hlock : s'.lock = s.lock) : s'.LedgerInv := by
  have hmember := List.mem_of_getElem? runner
  have hwf := h.runner _ hmember
  have hnodup : (request :: remaining).Nodup :=
    (horder.runner_nodup _ hmember).sublist hwf.sublist
  have hrequest : request ∈ batch.requests := hwf.sublist.subset List.mem_cons_self
  refine ⟨by rw [haccepted, hrequests, List.length_set, h.length], ?_, ?_⟩
  · intro other hother
    rw [hrunners] at hother
    rcases List.mem_or_eq_of_mem_set hother with hother | rfl
    · exact h.runner other hother
    · exact finishedPart_wellFormed hwf
  · intro other q hq
    rw [hrequests] at hq
    by_cases hother : request = other
    · subst hother
      rw [List.getElem?_set_self (List.getElem?_eq_some_iff.mp found).1] at hq
      cases hq
      refine (h.ledger request r found).finish runner hrunners hwaiting haccepted
        ?_ hrequest (List.nodup_cons.mp hnodup).1
      -- A request is dispatched only after all its rows are placed.
      rintro ⟨holder, held, rfl, -⟩
      rw [hlock] at held
      exact horder.undispatched holder held _ hmember hrequest
    · rw [List.getElem?_set_ne hother] at hq
      refine (h.ledger other q hq).congr (by rw [haccepted]) ?_ (.of_eq ?_) ?_ ?_
      · have hcount := finish_count runner hrunners hwaiting other
        rw [List.count_singleton, beq_false_of_ne hother] at hcount
        simpa using hcount
      · rw [failures, failures, hrunners]
        refine (flatMap_set_of_eq runner ?_).symm
        rw [finishedPart_failures, Runner.failures]
        simp [Runner.unfinished, Ne.symm hother, Runner.err]
      · rw [resolving, hrunners]
        refine flatMap_set_of_eq runner ?_
        rw [finishedPart_resolving, if_neg (fun hand => hother hand.1)]
        rfl
      · rw [Unplaced, hlock, Unplaced]

end Finish

theorem wellFormed_set {runners : List (Runner α ε)} {i : Nat}
    {next : Runner α ε} (h : ∀ runner ∈ runners, runner.WellFormed)
    (hnext : next.WellFormed) :
    ∀ runner ∈ runners.set i next, runner.WellFormed := by
  intro runner hrunner
  rcases List.mem_or_eq_of_mem_set hrunner with hrunner | rfl
  · exact h runner hrunner
  · exact hnext

/-- A goroutine moves on without touching a request. -/
theorem LedgerInv.advance {s s' : Batcher α ε} (h : s.LedgerInv) {i : Nat}
    {old next : Runner α ε} (runner : s.runners[i]? = some old)
    (hrunners : s'.runners = s.runners.set i next)
    (hnext : next.WellFormed) (hunfinished : next.unfinished = old.unfinished)
    (hfailures : ∀ request, next.failures request = old.failures request)
    (hresolving : ∀ request, next.resolving request = old.resolving request)
    (hrequests : s'.requests = s.requests) (haccepted : s'.accepted = s.accepted)
    (hwaiting : s'.waiting = s.waiting) (hlock : s'.lock = s.lock) :
    s'.LedgerInv := by
  refine h.congr hrequests haccepted ?_ ?_ ?_ ?_ ?_
  · rw [hrunners]
    exact wellFormed_set h.runner hnext
  · rw [openParts, openParts, hwaiting, hrunners,
      flatMap_set_of_eq runner hunfinished]
  · intro request
    rw [failures, failures, hrunners, flatMap_set_of_eq runner (hfailures request)]
  · intro request
    rw [resolving, resolving, hrunners,
      flatMap_set_of_eq runner (hresolving request)]
  · intro request
    rw [Unplaced, Unplaced, hlock]

/-- Nothing is known yet of the request that comes next. -/
theorem LedgerInv.accept {s : Batcher α ε} (h : s.LedgerInv)
    (horder : s.OrderInv) (free : s.lock = none) {rows : List α}
    (coalesce : Bool) (nonempty : rows ≠ []) :
    (s.accept rows coalesce).LedgerInv := by
  refine ⟨by simp [Batcher.accept, h.length], h.runner, ?_⟩
  intro request q hq
  simp only [Batcher.accept] at hq
  by_cases hlt : request < s.requests.length
  · rw [List.getElem?_append_left hlt] at hq
    refine (h.ledger request q hq).congr ?_ rfl (.refl _) rfl ?_
    · exact List.getElem?_append_left (h.length ▸ hlt)
    · simp only [Unplaced, Batcher.accept, free]
      constructor
      · rintro ⟨_, ⟨⟩, rfl, -⟩
        exact absurd hlt (Nat.lt_irrefl _)
      · rintro ⟨_, ⟨⟩, -⟩
  · rw [List.getElem?_append_right (by omega)] at hq
    obtain ⟨hindex, hget⟩ := List.getElem?_eq_some_iff.mp hq
    obtain rfl : request = s.requests.length := by
      simp at hindex
      omega
    obtain rfl : q = newCopyRequest rows.length := by
      simpa using hget.symm
    have hwaiting : ∀ batch ∈ s.waiting, s.requests.length ∉ batch.requests :=
      fun batch hbatch hr => Nat.lt_irrefl _ (horder.bounded batch hbatch _ hr)
    have hrunners : ∀ runner ∈ s.runners,
        s.requests.length ∉ runner.batch.requests :=
      fun runner hrunner hr =>
        Nat.lt_irrefl _ (horder.runner_bounded runner hrunner _ hr)
    have hparts : (s.accept rows coalesce).openParts.count s.requests.length = 0 := by
      change s.openParts.count s.requests.length = 0
      rw [List.count_eq_zero, openParts, List.mem_append, List.mem_flatMap,
        List.mem_flatMap]
      rintro (⟨batch, hbatch, hr⟩ | ⟨runner, hrunner, hr⟩)
      · exact hwaiting batch hbatch hr
      · exact hrunners runner hrunner
          ((h.runner runner hrunner).unfinished_sublist.subset hr)
    have hfailures : (s.accept rows coalesce).failures s.requests.length = [] := by
      refine List.flatMap_eq_nil_iff.mpr fun runner hrunner => ?_
      exact if_neg fun hand => hrunners runner hrunner hand.1
    have hresolving : s.resolving s.requests.length = [] :=
      List.flatMap_eq_nil_iff.mpr fun runner hrunner =>
        (h.runner runner hrunner).resolving_eq_nil (hrunners runner hrunner)
    refine ⟨?_, ?_, ?_, ?_⟩
    · simp [Batcher.accept, ← h.length, newCopyRequest]
    · rw [hparts]
      rfl
    · rw [hfailures]
      exact .nil
    · exact .waiting rfl hresolving (.inr ⟨_, rfl, rfl, nonempty⟩)

/-- The goroutine that finished the last part resolves the future. -/
theorem LedgerInv.resolve {s s' : Batcher α ε} (h : s.LedgerInv)
    {i request : Nat} {batch : CopyBatch α}
    {outcome : Option (Int64 × Option (GoError ε))}
    {err : Option (GoError ε)} {remaining completed completed' : List Nat}
    (runner : s.runners[i]? =
      some ⟨batch, outcome, .resolving request err remaining completed⟩)
    (hrunners : s'.runners = s.runners.set i
      ⟨batch, outcome, .finishing remaining completed'⟩)
    (hrequests : s'.requests = s.requests.modify request (·.resolve err))
    (hwaiting : s'.waiting = s.waiting) (haccepted : s'.accepted = s.accepted)
    (hlock : s'.lock = s.lock) : s'.LedgerInv := by
  have hwf := h.runner _ (List.mem_of_getElem? runner)
  have hparts : s'.openParts = s.openParts := by
    rw [openParts, openParts, hwaiting, hrunners]
    exact congrArg _ (flatMap_set_of_eq runner rfl)
  have hfailures : ∀ other, s'.failures other = s.failures other := by
    intro other
    rw [failures, hrunners]
    exact flatMap_set_of_eq runner rfl
  have hunplaced : ∀ other, s'.Unplaced other ↔ s.Unplaced other := by
    intro other
    rw [Unplaced, Unplaced, hlock]
  refine ⟨by rw [haccepted, hrequests, List.length_modify, h.length], ?_, ?_⟩
  · rw [hrunners]
    exact wellFormed_set h.runner
      ⟨(List.sublist_cons_self _ _).trans hwf.sublist,
        fun hnone => nomatch hwf.returned hnone⟩
  intro other q' hq'
  rw [hrequests, List.getElem?_modify] at hq'
  obtain ⟨q, hq, rfl⟩ := Option.map_eq_some_iff.mp hq'
  have hledger := h.ledger other q hq
  obtain ⟨left, right, hold, hnew⟩ := flatMap_set_split runner
    ⟨batch, outcome, .finishing remaining completed'⟩ (·.resolving other)
  by_cases hother : request = other
  · subst hother
    have hlist : s.resolving request = left ++ err :: right := by
      rw [resolving, hold]
      simp [Runner.resolving]
    rw [if_pos rfl]
    refine ⟨?_, ?_, ?_, ?_⟩
    · rw [haccepted, CopyRequest.resolve_rowCount]
      exact hledger.rowCount
    · rw [hparts, CopyRequest.resolve_pendingParts]
      exact hledger.parts
    · rw [hfailures, CopyRequest.resolve_errs]
      exact hledger.errs
    · -- The goroutine found in the table is the only one, by the stage.
      cases hledger.stage with
      | waiting _ none_resolving => simp [hlist] at none_resolving
      | settled _ none_resolving => simp [hlist] at none_resolving
      | resolving pending one_resolving no_parts placed =>
          rw [hlist] at one_resolving
          obtain ⟨rfl, hone⟩ : left = [] ∧ err :: right = [GoError.join q.errs] := by
            rw [List.append_eq_singleton_iff] at one_resolving
            simpa using one_resolving
          obtain ⟨rfl, rfl⟩ := List.cons.inj hone
          refine .settled ?_ ?_ (by rw [hparts, no_parts]) ?_
          · rw [CopyRequest.resolve_outcome pending]
            simp [CopyRequest.verdict]
          · rw [resolving, hrunners, hnew]
            rfl
          · rwa [hunplaced]
  · rw [if_neg hother]
    refine hledger.congr (by rw [haccepted]) (by rw [hparts])
      (.of_eq (hfailures other).symm) ?_ (hunplaced other)
    rw [resolving, resolving, hrunners]
    exact flatMap_set_of_eq runner (by simp [Runner.resolving, hother])

theorem LedgerInv.move {s s' : Batcher α ε} (horder : s.OrderInv)
    (h : s.LedgerInv) (hmove : Move s s') : s'.LedgerInv := by
  cases hmove with
  | accept free nonempty => exact h.accept horder free _ nonempty
  | @extend holder batch timers nextBatch held coalesce nonempty current room =>
      exact h.place held nonempty rfl rfl rfl rfl
        (.of_eq (current.waiting_parts holder.request holder.rows))
  | @fill holder batch timers timers' nextBatch rowCount held coalesce positive
      within current full =>
      have hparts := current.waiting_parts holder.request
        (holder.rows.take rowCount)
      refine h.place held (List.ne_nil_of_length_pos (by omega)) rfl rfl rfl rfl
        (.of_eq (Eq.trans ?_ hparts))
      simp [waiting, CopyBatch.detached]
  | @unbatched holder held coalesce nonempty =>
      exact h.place held nonempty rfl rfl rfl rfl (unbatched_parts s _)
  | @release holder held placed =>
      refine h.congr rfl rfl h.runner (.refl _) (fun _ => rfl) (fun _ => rfl) ?_
      intro request
      simp [Unplaced, held, placed]
  | @detach batch reason timers free active cause =>
      refine h.congr rfl rfl h.runner (.of_eq ?_) (fun _ => rfl) (fun _ => rfl)
        (fun _ => Iff.rfl)
      simp [openParts, waiting, active]
  | @schedule batches rest free regroup capacity =>
      have hwf : ∀ runner ∈ s.runners ++ batches.map Runner.start,
          runner.WellFormed := by
        intro runner hrunner
        rcases List.mem_append.mp hrunner with hrunner | hrunner
        · exact h.runner runner hrunner
        · obtain ⟨batch, -, rfl⟩ := List.mem_map.mp hrunner
          exact Runner.start_wellFormed batch
      refine h.congr rfl rfl hwf ?_ ?_ ?_ (fun _ => Iff.rfl)
      · have hqueue := regroup.requests_eq
        rw [List.flatMap_append] at hqueue
        simp only [openParts, waiting, List.flatMap_append, ← hqueue,
          List.flatMap_map, Runner.start, Runner.unfinished]
        rw [← Multiset.coe_eq_coe]
        simp only [← Multiset.coe_add]
        abel
      · intro request
        simp [failures, Runner.failures, Runner.start, Runner.unfinished,
          List.flatMap_map]
      · intro request
        simp [resolving, Runner.resolving, Runner.start, List.flatMap_map]
  | @copyReturns i batch outcome count err runner =>
      refine h.advance runner rfl ⟨.refl _, ?_⟩ rfl ?_ (fun _ => rfl) rfl rfl
        rfl rfl
      · rintro ⟨⟩
      · intro request
        simp [Runner.failures, Runner.unfinished]
  | @finishPart i request batch outcome remaining completed r runner found more =>
      refine h.finish horder runner found ?_ rfl rfl rfl rfl
      rw [finishedPart, if_neg more]
  | @finishLast i request batch outcome remaining completed r runner found last =>
      refine h.finish horder runner found ?_ rfl rfl rfl rfl
      rw [finishedPart, if_pos last]
  | resolve runner => exact h.resolve runner rfl rfl rfl rfl rfl
  | @retire i batch outcome completed free runner =>
      have hwf := h.runner _ (List.mem_of_getElem? runner)
      refine h.advance runner rfl ⟨hwf.sublist, ?_⟩ rfl
        (fun _ => rfl) (fun _ => rfl) rfl rfl rfl rfl
      intro hnone
      cases hwf.returned hnone
  | timer live =>
      exact h.congr rfl rfl h.runner (.refl _) (fun _ => rfl) (fun _ => rfl)
        (fun _ => Iff.rfl)
  | flush free inactive order_perm =>
      exact h.congr rfl rfl h.runner (.refl _) (fun _ => rfl) (fun _ => rfl)
        (fun _ => Iff.rfl)
  | awaitFuture waiting found settled =>
      exact h.congr rfl rfl h.runner (.refl _) (fun _ => rfl) (fun _ => rfl)
        (fun _ => Iff.rfl)
  | flushReturns waiting =>
      exact h.congr rfl rfl h.runner (.refl _) (fun _ => rfl) (fun _ => rfl)
        (fun _ => Iff.rfl)

end Batcher

end PgMesh.Copy
