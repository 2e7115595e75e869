import PgMesh.Store.AsyncSpans

/-!
# What `FlushX` waits for

`FlushX` returns without an error, or with its context not cancelled, only when all the
flushes that it made under the mutex are over, and then every call of `CopyXAsync` that
was accepted before it has its result.  A cancelled context ends the wait and nothing
else.
-/

namespace PgMesh.Store

open PgMesh.Foundation
open PgMesh.Topology
open PgMesh.Copy
open PgMesh.Copy.Batcher (Reply)
open CopyBatchState (Later BatchersReachable)

variable {ρ κ A Item α ε : Type}

/-- The errors of the flushes that are over, in the order of the replica sets. -/
def CopyBatchState.flushErrors (q : CopyQuery Item A α) (st : CopyBatchState Item ρ α ε)
    (flushes : List (String × Nat)) : List (GoError ε) :=
  flushes.filterMap fun entry =>
    (st.flushOutcome entry).join.map (flushError q.methodName entry.1)

namespace FlushWait

/-- The error that the loop collects for what `Await` has returned. -/
def collected (q : CopyQuery Item A α) (visit : (String × Nat) × Option (GoError ε)) :
    Option (GoError ε) :=
  visit.2.map (flushError q.methodName visit.1.1)

/-- `visited` is what `Await` has returned for each flush that the loop has passed. -/
structure Inv (q : CopyQuery Item A α) (st : CopyBatchState Item ρ α ε) (w : FlushWait ε)
    (f : FlushCall) (visited : List ((String × Nat) × Option (GoError ε))) : Prop where
  flush : st.flushes[w.flush]? = some f
  done : f.remaining = []
  passed : f.flushes = visited.map Prod.fst ++ w.remaining ∨
    (w.ctxErr ≠ none ∧ w.flushErrors ≠ [])
  outcomes : ∀ visit ∈ visited, st.flushOutcome visit.1 = some visit.2 ∨
    (visit.2 = w.ctxErr ∧ w.ctxErr ≠ none)
  errors : w.flushErrors = visited.filterMap (collected q)
  result : ∀ r, w.result = some r → w.remaining = [] ∧ r = GoError.join w.flushErrors

variable {q : CopyQuery Item A α} {st st' : CopyBatchState Item ρ α ε} {w w' : FlushWait ε}
  {f : FlushCall} {visited : List ((String × Nat) × Option (GoError ε))}

theorem Inv.later (h : w.Inv q st f visited) (hreach : st.BatchersReachable)
    (hlater : Later st st') : w.Inv q st' f visited where
  flush := hlater.flushes _ f h.flush h.done
  done := h.done
  passed := h.passed
  outcomes := by
    intro visit hvisit
    rcases h.outcomes visit hvisit with hsettled | hcancelled
    · exact .inl (CopyBatchState.flushOutcome_later hreach hlater hsettled)
    · exact .inr hcancelled
  errors := h.errors
  result := h.result

theorem start_inv {flush : Nat} (hflush : st.flushes[flush]? = some f)
    (hdone : f.remaining = []) : (start flush f.flushes : FlushWait ε).Inv q st f [] :=
  ⟨hflush, hdone, .inl rfl, nofun, rfl, nofun⟩

theorem Inv.consume (h : w.Inv q st f visited) {entry : String × Nat}
    {rest : List (String × Nat)} (hremaining : w.remaining = entry :: rest)
    {err : Option (GoError ε)}
    (herr : st.flushOutcome entry = some err ∨ (err = w.ctxErr ∧ w.ctxErr ≠ none)) :
    (w.consume q entry.1 rest err).Inv q st f (visited ++ [(entry, err)]) := by
  have hopen : w.result = none := by
    by_contra hresult
    obtain ⟨r, hr⟩ := Option.ne_none_iff_exists'.mp hresult
    have hnil := (h.result r hr).1
    rw [hremaining] at hnil
    cases hnil
  have hvisited : ∀ visit ∈ visited ++ [(entry, err)],
      st.flushOutcome visit.1 = some visit.2 ∨ (visit.2 = w.ctxErr ∧ w.ctxErr ≠ none) := by
    intro visit hvisit
    rcases List.mem_append.mp hvisit with hvisit | hvisit
    · exact h.outcomes visit hvisit
    · rw [List.mem_singleton.mp hvisit]
      exact herr
  have hpassed : f.flushes = (visited ++ [(entry, err)]).map Prod.fst ++ rest ∨
      (w.ctxErr ≠ none ∧ w.flushErrors ≠ []) := by
    rcases h.passed with hpassed | hstopped
    · left
      rw [hpassed, hremaining]
      simp
    · exact .inr hstopped
  cases err with
  | none =>
      refine ⟨h.flush, h.done, hpassed, hvisited, ?_, ?_⟩
      · change w.flushErrors = _
        simp [h.errors, collected]
      · intro r hr
        change w.result = some r at hr
        rw [hopen] at hr
        cases hr
  | some err =>
      refine ⟨h.flush, h.done, ?_, hvisited, ?_, ?_⟩
      · change f.flushes = _ ++ (if w.ctxErr.isSome then [] else rest) ∨
          (w.ctxErr ≠ none ∧ w.flushErrors ++ [flushError q.methodName entry.1 err] ≠ [])
        split
        · rename_i hcancelled
          right
          exact ⟨Option.isSome_iff_ne_none.mp hcancelled, by simp⟩
        · rename_i hactive
          rcases hpassed with hpassed | ⟨hcancelled, -⟩
          · exact .inl hpassed
          · exact absurd (Option.isSome_iff_ne_none.mpr hcancelled) hactive
      · change w.flushErrors ++ [flushError q.methodName entry.1 err] = _
        simp [h.errors, collected]
      · intro r hr
        change w.result = some r at hr
        rw [hopen] at hr
        cases hr

theorem Inv.step (h : w.Inv q st f visited) {label : WaitStep ε}
    (hstep : w.step q st label = some w') : ∃ visited', w'.Inv q st f visited' := by
  cases label with
  | poll =>
      change w.poll q st = some w' at hstep
      unfold FlushWait.poll at hstep
      split at hstep
      · rename_i entry rest hpolled hremaining
        split at hstep
        · cases hstep
          exact ⟨visited, h.flush, h.done, h.passed, h.outcomes, h.errors, h.result⟩
        · rename_i err herr
          cases hstep
          exact ⟨_, h.consume hremaining (.inl herr)⟩
      · cases hstep
  | await =>
      change w.await q st = some w' at hstep
      unfold FlushWait.await at hstep
      split at hstep
      · rename_i entry rest hpolled hremaining
        obtain ⟨err, herr, rfl⟩ := Option.map_eq_some_iff.mp hstep
        exact ⟨_, h.consume hremaining (.inl herr)⟩
      · cases hstep
  | cancelled =>
      change w.cancelled q = some w' at hstep
      unfold FlushWait.cancelled at hstep
      split at hstep
      · rename_i entry rest err hpolled hremaining hctx
        cases hstep
        exact ⟨_, h.consume hremaining (.inr ⟨hctx.symm, by simp [hctx]⟩)⟩
      · cases hstep
  | returns =>
      change w.returns = some w' at hstep
      unfold FlushWait.returns at hstep
      split at hstep
      · rename_i hresult hremaining
        cases hstep
        refine ⟨visited, h.flush, h.done, h.passed, h.outcomes, h.errors, ?_⟩
        intro r hr
        cases hr
        exact ⟨hremaining, rfl⟩
      · cases hstep
  | cancelContext err =>
      change w.cancelContext err = some w' at hstep
      unfold FlushWait.cancelContext at hstep
      split at hstep
      · rename_i hctx
        cases hstep
        refine ⟨visited, h.flush, h.done, ?_, ?_, h.errors, h.result⟩
        · rcases h.passed with hpassed | ⟨hcancelled, -⟩
          · exact .inl hpassed
          · exact absurd hctx hcancelled
        · intro visit hvisit
          rcases h.outcomes visit hvisit with hsettled | ⟨-, hcancelled⟩
          · exact .inl hsettled
          · exact absurd hctx hcancelled
      · cases hstep

/-- The loop has passed every flush, each with the result that the flush has. -/
theorem Inv.all_settled (h : w.Inv q st f visited) {r : Option (GoError ε)}
    (hr : w.result = some r) (hend : r = none ∨ w.ctxErr = none) :
    (∀ entry ∈ f.flushes, st.flushOutcome entry ≠ none) ∧
      r = GoError.join (st.flushErrors q f.flushes) := by
  obtain ⟨hremaining, hresult⟩ := h.result r hr
  -- An error of the context would have been collected.
  have hsettled : ∀ visit ∈ visited, st.flushOutcome visit.1 = some visit.2 := by
    intro visit hvisit
    rcases h.outcomes visit hvisit with hsettled | ⟨hctx, hcancelled⟩
    · exact hsettled
    · rcases hend with rfl | hnone
      · rw [eq_comm, GoError.join_eq_none, h.errors, List.filterMap_eq_nil_iff] at hresult
        have hnone := hresult visit hvisit
        rw [collected, Option.map_eq_none_iff] at hnone
        exact absurd (hctx.symm.trans hnone) hcancelled
      · exact absurd hnone hcancelled
  have hall : f.flushes = visited.map Prod.fst := by
    rcases h.passed with hpassed | ⟨hcancelled, herrors⟩
    · rw [hpassed, hremaining, List.append_nil]
    · rcases hend with rfl | hnone
      · exact absurd (GoError.join_eq_none.mp hresult.symm) herrors
      · exact absurd hnone hcancelled
  constructor
  · intro entry hentry
    rw [hall] at hentry
    obtain ⟨visit, hvisit, rfl⟩ := List.mem_map.mp hentry
    simp [hsettled visit hvisit]
  · rw [hresult, h.errors, hall, CopyBatchState.flushErrors, List.filterMap_map]
    refine congrArg GoError.join (List.filterMap_congr ?_)
    intro visit hvisit
    simp [collected, hsettled visit hvisit]

/-! ## The wait ends -/

theorem returns_of_nil (hresult : w.result = none) (hremaining : w.remaining = []) :
    ∃ w', Reaches (FlushWait.step q st) w w' ∧ w'.result ≠ none := by
  have hstep : w.step q st .returns =
      some { w with result := some (GoError.join w.flushErrors) } := by
    simp [FlushWait.step, FlushWait.returns, hresult, hremaining]
  exact ⟨_, .single hstep, by simp⟩

@[simp] theorem consume_ctxErr (shardName : String) (rest : List (String × Nat))
    (err : Option (GoError ε)) : (w.consume q shardName rest err).ctxErr = w.ctxErr := by
  cases err <;> rfl

@[simp] theorem consume_result (shardName : String) (rest : List (String × Nat))
    (err : Option (GoError ε)) : (w.consume q shardName rest err).result = w.result := by
  cases err <;> rfl

theorem consume_remaining (shardName : String) (rest : List (String × Nat))
    (err : Option (GoError ε)) : (w.consume q shardName rest err).remaining = rest ∨
      (w.consume q shardName rest err).remaining = [] := by
  cases err with
  | none => exact .inl rfl
  | some err =>
      simp only [consume]
      split
      · exact .inr rfl
      · exact .inl rfl

/-- `Await` returns for the next flush, and the loop body is run. -/
theorem consumes (q : CopyQuery Item A α) (st : CopyBatchState Item ρ α ε)
    {entry : String × Nat} {rest : List (String × Nat)}
    (hremaining : w.remaining = entry :: rest)
    (hend : w.ctxErr ≠ none ∨ st.flushOutcome entry ≠ none) :
    ∃ (d : FlushWait ε) (err : Option (GoError ε)), d.ctxErr = w.ctxErr ∧ d.result = w.result ∧
      Reaches (FlushWait.step q st) w (d.consume q entry.1 rest err) := by
  have hsecond : ∀ d : FlushWait ε, d.polled = true → d.remaining = entry :: rest →
      (d.ctxErr ≠ none ∨ st.flushOutcome entry ≠ none) →
        ∃ err, Reaches (FlushWait.step q st) d (d.consume q entry.1 rest err) := by
    intro d hpolled hnext hend
    cases houtcome : st.flushOutcome entry with
    | some err =>
        have hstep : d.step q st .await = some (d.consume q entry.1 rest err) := by
          simp [FlushWait.step, FlushWait.await, hpolled, hnext, houtcome]
        exact ⟨err, .single hstep⟩
    | none =>
        obtain ⟨err, herr⟩ := Option.ne_none_iff_exists'.mp
          (hend.resolve_right (not_not.mpr houtcome))
        have hstep : d.step q st .cancelled = some (d.consume q entry.1 rest (some err)) := by
          simp [FlushWait.step, FlushWait.cancelled, hpolled, hnext, herr]
        exact ⟨some err, .single hstep⟩
  cases hpolled : w.polled with
  | true =>
      obtain ⟨err, hrun⟩ := hsecond w hpolled hremaining hend
      exact ⟨w, err, rfl, rfl, hrun⟩
  | false =>
      cases houtcome : st.flushOutcome entry with
      | some err =>
          have hstep : w.step q st .poll = some (w.consume q entry.1 rest err) := by
            simp [FlushWait.step, FlushWait.poll, hpolled, hremaining, houtcome]
          exact ⟨w, err, rfl, rfl, .single hstep⟩
      | none =>
          have hstep : w.step q st .poll = some { w with polled := true } := by
            simp [FlushWait.step, FlushWait.poll, hpolled, hremaining, houtcome]
          obtain ⟨err, hrun⟩ := hsecond { w with polled := true } rfl hremaining hend
          exact ⟨{ w with polled := true }, err, rfl, rfl, (Reaches.single hstep).trans hrun⟩

theorem completes (hresult : w.result = none)
    (hend : w.ctxErr ≠ none ∨ ∀ entry ∈ w.remaining, st.flushOutcome entry ≠ none) :
    ∃ w', Reaches (FlushWait.step q st) w w' ∧ w'.result ≠ none := by
  generalize hremaining : w.remaining = remaining at hend
  induction remaining generalizing w with
  | nil => exact returns_of_nil hresult hremaining
  | cons entry rest ih =>
      obtain ⟨d, err, hctx, hopen, hrun⟩ := consumes q st hremaining
        (hend.imp_right fun hall => hall entry List.mem_cons_self)
      have hopen' : (d.consume q entry.1 rest err).result = none := by
        rw [consume_result, hopen, hresult]
      obtain ⟨w', hrun', hdone⟩ : ∃ w', Reaches (FlushWait.step q st)
          (d.consume q entry.1 rest err) w' ∧ w'.result ≠ none := by
        rcases consume_remaining (w := d) (q := q) entry.1 rest err with hrest | hnil
        · refine ih hopen' hrest ?_
          rw [consume_ctxErr, hctx]
          exact hend.imp_right fun hall e he => hall e (List.mem_cons_of_mem _ he)
        · exact returns_of_nil hopen' hnil
      exact ⟨w', hrun.trans hrun', hdone⟩

end FlushWait

/-! ## The store -/

theorem CopyBatchState.later_reaches [Named ρ] [Inhabited κ] {s : MeshStore ρ κ A}
    {q : CopyQuery Item A α} {st st' : CopyBatchState Item ρ α ε}
    (hrun : Reaches (CopyBatchState.step s q) st st') : Later st st' :=
  hrun.relation (P := fun _ => True) (R := Later) trivial (fun _ _ => trivial) Later.refl
    Later.trans fun _ hstep => later_step hstep

namespace AsyncStore

variable [Named ρ] [Inhabited κ] {s : MeshStore ρ κ A} {q : CopyQuery Item A α}
  {st st' : AsyncStore Item ρ α ε}

/-- What a step does to the calls of `FlushX` that wait. -/
theorem waits_cases {action : StoreAction Item α ε} (hstep : st.step s q action = some st') :
    st'.waits = st.waits ∨
    (∃ flush f, st.copy.flushes[flush]? = some f ∧ f.remaining = [] ∧
      st'.copy = { st.copy with mu := none } ∧
      st'.waits = st.waits ++ [.start flush f.flushes]) ∨
    ∃ index w w' label, st.waits[index]? = some w ∧ w.step q st.copy label = some w' ∧
      st' = { st with waits := st.waits.set index w' } := by
  cases action with
  | copyAsync arg ctxErr =>
      change st.copyAsync s q arg ctxErr = some st' at hstep
      unfold AsyncStore.copyAsync at hstep
      split at hstep
      · cases hstep
      · cases hstep
        exact .inl rfl
  | copyUnlock index =>
      change st.copyUnlock index = some st' at hstep
      unfold AsyncStore.copyUnlock at hstep
      split at hstep
      · split at hstep
        · split at hstep
          · cases hstep
            exact .inl rfl
          · cases hstep
        · cases hstep
      · cases hstep
  | flushUnlock =>
      change st.flushUnlock = some st' at hstep
      unfold AsyncStore.flushUnlock at hstep
      split at hstep
      · rename_i flush hmu
        split at hstep
        · rename_i f copy hf hcopy
          cases hstep
          obtain ⟨rfl, flush', f', hmu', hf', hdone⟩ := CopyBatchState.later_flushUnlock hcopy
          rw [hmu] at hmu'
          cases hmu'
          rw [hf] at hf'
          cases hf'
          exact .inr (.inl ⟨flush, f, hf, hdone, rfl, rfl⟩)
        · cases hstep
      · cases hstep
  | locked action =>
      simp only [AsyncStore.step] at hstep
      split at hstep
      · obtain ⟨copy, -, rfl⟩ := Option.map_eq_some_iff.mp hstep
        exact .inl rfl
      · cases hstep
  | call index label =>
      simp only [AsyncStore.step] at hstep
      split at hstep
      · cases hstep
      · obtain ⟨c', -, rfl⟩ := Option.map_eq_some_iff.mp hstep
        exact .inl rfl
  | wait index label =>
      simp only [AsyncStore.step] at hstep
      split at hstep
      · cases hstep
      · rename_i w hw
        obtain ⟨w', hw', rfl⟩ := Option.map_eq_some_iff.mp hstep
        exact .inr (.inr ⟨index, w, w', label, hw, hw', rfl⟩)

def WaitsInv (q : CopyQuery Item A α) (st : AsyncStore Item ρ α ε) : Prop :=
  ∀ w ∈ st.waits, ∃ f visited, w.Inv q st.copy f visited

theorem WaitsInv.step (h : st.Inv s q) (hwaits : st.WaitsInv q)
    {action : StoreAction Item α ε} (hstep : st.step s q action = some st') :
    st'.WaitsInv q := by
  have hlater : Later st.copy st'.copy := CopyBatchState.later_reaches (h.step hstep).2
  have hkept : ∀ w ∈ st.waits, ∃ f visited, w.Inv q st'.copy f visited := by
    intro w hw
    obtain ⟨f, visited, hinv⟩ := hwaits w hw
    exact ⟨f, visited, hinv.later h.copy.reachable hlater⟩
  rcases waits_cases hstep with hsame | ⟨flush, f, hf, hdone, hcopy, hsame⟩ |
    ⟨index, w, w', label, hw, hw', rfl⟩
  · intro w hw
    rw [hsame] at hw
    exact hkept w hw
  · intro w hw
    rw [hsame] at hw
    rcases List.mem_append.mp hw with hw | hw
    · exact hkept w hw
    · rw [List.mem_singleton.mp hw, hcopy]
      exact ⟨f, [], FlushWait.start_inv hf hdone⟩
  · intro d hd
    rcases List.mem_or_eq_of_mem_set hd with hd | rfl
    · exact hwaits d hd
    · obtain ⟨f, visited, hinv⟩ := hwaits w (List.mem_of_getElem? hw)
      obtain ⟨visited', hinv'⟩ := hinv.step hw'
      exact ⟨f, visited', hinv'⟩

theorem reaches_wait (s : MeshStore ρ κ A) {k : Nat} {w w' : FlushWait ε}
    (hw : st.waits[k]? = some w) (hrun : Reaches (FlushWait.step q st.copy) w w') :
    Reaches (AsyncStore.step s q) st { st with waits := st.waits.set k w' } := by
  have hk : k < st.waits.length := (List.getElem?_eq_some_iff.mp hw).1
  refine hrun.invariant (P := fun d => Reaches (AsyncStore.step s q) st
    { st with waits := st.waits.set k d }) ?_ ?_
  · rw [← (List.getElem?_eq_some_iff.mp hw).2, List.set_getElem_self]
    exact .refl st
  · intro d label d' hd hstep
    have hwait : AsyncStore.step s q { st with waits := st.waits.set k d } (.wait k label) =
        some { st with waits := st.waits.set k d' } := by
      simp [AsyncStore.step, List.getElem?_set_self hk, hstep, List.set_set]
    exact hd.tail hwait

end AsyncStore

namespace CopyBatchState

theorem awaitResults_ne_none {q : CopyQuery Item A α} {st : CopyBatchState Item ρ α ε}
    {asyncResults : List (String × Reply ε)} {count : Int64}
    {copyErrors : List (GoError ε)}
    (h : ∀ result ∈ asyncResults, st.awaitResult result ≠ none) :
    st.awaitResults q count copyErrors asyncResults ≠ none := by
  induction asyncResults generalizing count copyErrors with
  | nil =>
      simp only [awaitResults]
      split <;> simp
  | cons result asyncResults ih =>
      have hrest := fun r hr => h r (List.mem_cons_of_mem _ hr)
      obtain ⟨⟨shardCount, err⟩, hresult⟩ :=
        Option.ne_none_iff_exists'.mp (h result List.mem_cons_self)
      simp only [awaitResults, hresult]
      cases err with
      | none => exact ih hrest
      | some err => exact ih hrest

theorem flushOutcome_eq {st : CopyBatchState Item ρ α ε} {shardName : String} {k : Nat}
    {b : Batcher α ε} {flush : Flush ε} (hb : GoMap.get? st.batchers shardName = some b)
    (hk : b.flushes[k]? = some flush) :
    st.flushOutcome (shardName, k) = flush.result.outcome.map Prod.snd := by
  simp [flushOutcome, hb, hk, Future.await]

variable [Named ρ] [Inhabited κ] {s : MeshStore ρ κ A} {q : CopyQuery Item A α}
  {st : CopyBatchState Item ρ α ε} {f : FlushCall}

/-- Each call that was accepted before a flush has its result when the flushes are over. -/
theorem Inv.combined_of_flushed (h : CopyBatchState.Inv s q st) (hf : f ∈ st.flushes)
    (hdone : f.remaining = [])
    (hsettled : ∀ entry ∈ f.flushes, st.flushOutcome entry ≠ none)
    {i : Nat} {call : CopyCall Item ρ α ε} (hcall : st.calls[i]? = some call)
    (hbefore : i < f.callsBefore) : st.combined q call ≠ none := by
  have hmem := List.mem_of_getElem? hcall
  refine awaitResults_ne_none ?_
  rintro ⟨shardName, reply⟩ hresult
  obtain ⟨submitted, -, hhanded⟩ := h.handed call hmem
  obtain ⟨group, -, -, b, request, hb, hreply, -⟩ := exists_of_mem_right hhanded hresult
  cases hreply
  have hfragment : st.Fragment call shardName b request := ⟨hresult, hb⟩
  obtain ⟨flush, hflush⟩ :=
    h.shardFlush_of_done hf hdone (h.fragment_mem hmem hfragment) hb
  have hlt := (h.request_lt_barrier hcall hf hfragment hflush).1 hbefore
  obtain ⟨-, k, hentry, hk⟩ := hflush
  have hover := hsettled _ hentry
  rw [flushOutcome_eq hb hk] at hover
  have hresolved : flush.result.outcome ≠ none := by
    rintro hnone
    rw [hnone] at hover
    exact hover rfl
  simpa [awaitResult, hb] using
    outcome_of_flush (h.reachable _ b hb) (List.mem_of_getElem? hk) hresolved hlt

/-- Without an error, every request that a flush awaited was copied. -/
theorem Inv.succeeded_of_flushed (h : CopyBatchState.Inv s q st)
    (hsettled : ∀ entry ∈ f.flushes, st.flushOutcome entry ≠ none)
    (hnone : st.flushErrors q f.flushes = []) {shardName : String} {b : Batcher α ε}
    {flush : Flush ε} (hflush : st.ShardFlush f shardName b flush) :
    ∀ request ∈ flush.futures, ∃ value, b.outcome request = some (value, none) := by
  obtain ⟨hb, k, hentry, hk⟩ := hflush
  obtain ⟨err, herr⟩ := Option.ne_none_iff_exists'.mp (hsettled _ hentry)
  have hclean := List.filterMap_eq_nil_iff.mp hnone _ hentry
  rw [herr, Option.join_some, Option.map_eq_none_iff] at hclean
  subst hclean
  rw [flushOutcome_eq hb hk] at herr
  obtain ⟨⟨value, err⟩, hresult, rfl⟩ := Option.map_eq_some_iff.mp herr
  have hwf := (h.reachable _ b hb).flushInv flush (List.mem_of_getElem? hk)
  obtain ⟨hnil, hjoin⟩ := hwf.returned value none hresult
  obtain ⟨finished, hfutures, hfinished, herrs⟩ := hwf.awaited
  rw [hnil, List.append_nil] at hfutures
  rw [hfutures]
  refine (Batcher.errorsOf_eq_nil hfinished).mp ?_
  rw [← herrs]
  exact GoError.join_eq_none.mp hjoin.symm

end CopyBatchState

section Flushes

variable [Named ρ] [Inhabited κ] {s : MeshStore ρ κ A} {q : CopyQuery Item A α}
  {configured : Option CopyBatchConfig} {start : CopyBatchState Item ρ α ε}
  {st : AsyncStore Item ρ α ε}

/--
When `FlushX` returns `nil`, or returns with its context not cancelled, every flush that
it made is over and every call of `CopyXAsync` accepted before it has its result; the
error joins those of the flushes in the order of the replica sets, and with `nil` every
request that a flush awaited was copied.  A call of `FlushX` whose context is cancelled,
or whose flushes are over, returns by its own steps, which change nothing of the batching.
-/
theorem flush_waits_for_its_flushes
    (hstart : CopyBatchState.initializeCopyBatchers s q configured = .ok start)
    (hrun : Reaches (AsyncStore.step s q) (.initial start) st)
    {k : Nat} {w : FlushWait ε} (hw : st.waits[k]? = some w) :
    ∃ f, st.copy.flushes[w.flush]? = some f ∧
      (∀ r, w.result = some r → r = none ∨ w.ctxErr = none →
        (∀ entry ∈ f.flushes, st.copy.flushOutcome entry ≠ none) ∧
        r = GoError.join (st.copy.flushErrors q f.flushes) ∧
        (∀ (i : Nat) (call : CopyCall Item ρ α ε), st.copy.calls[i]? = some call →
          i < f.callsBefore → st.copy.combined q call ≠ none) ∧
        (r = none → ∀ shardName b flush, st.copy.ShardFlush f shardName b flush →
          ∀ request ∈ flush.futures, ∃ value, b.outcome request = some (value, none))) ∧
      (w.result = none →
        w.ctxErr ≠ none ∨ (∀ entry ∈ f.flushes, st.copy.flushOutcome entry ≠ none) →
          ∃ st' w', Reaches (AsyncStore.step s q) st st' ∧ st'.copy = st.copy ∧
            st'.waits[k]? = some w' ∧ w'.result ≠ none) := by
  have hinvs : st.Inv s q ∧ st.WaitsInv q := by
    refine hrun.invariant (P := fun t => t.Inv s q ∧ t.WaitsInv q)
      ⟨AsyncStore.initial_inv hstart, nofun⟩ ?_
    intro t label u ht hstep
    exact ⟨(ht.1.step hstep).1, AsyncStore.WaitsInv.step ht.1 ht.2 hstep⟩
  obtain ⟨hinv, hwaits⟩ := hinvs
  obtain ⟨f, visited, hwait⟩ := hwaits w (List.mem_of_getElem? hw)
  refine ⟨f, hwait.flush, ?_, ?_⟩
  · intro r hr hend
    obtain ⟨hsettled, hjoin⟩ := hwait.all_settled hr hend
    refine ⟨hsettled, hjoin, ?_, ?_⟩
    · intro i call hcall hbefore
      exact hinv.copy.combined_of_flushed (List.mem_of_getElem? hwait.flush) hwait.done
        hsettled hcall hbefore
    · rintro rfl shardName b flush hflush
      exact hinv.copy.succeeded_of_flushed hsettled (GoError.join_eq_none.mp hjoin.symm) hflush
  · intro hopen hend
    have hcan : w.ctxErr ≠ none ∨
        ∀ entry ∈ w.remaining, st.copy.flushOutcome entry ≠ none := by
      rcases hend with hcancelled | hall
      · exact .inl hcancelled
      · rcases hwait.passed with hpassed | ⟨hcancelled, -⟩
        · right
          intro entry hentry
          refine hall entry ?_
          rw [hpassed]
          exact List.mem_append_right _ hentry
        · exact .inl hcancelled
    obtain ⟨w', hrun', hdone⟩ := FlushWait.completes (q := q) hopen hcan
    have hk : k < st.waits.length := (List.getElem?_eq_some_iff.mp hw).1
    exact ⟨_, w', AsyncStore.reaches_wait s hw hrun', rfl, List.getElem?_set_self hk, hdone⟩

end Flushes

/-! ## The two sites -/

/-- `FlushX` waits for both sites, and its context is cancelled while one of them copies. -/
def flushTrace : List (StoreAction Nat Nat Unit) :=
  asyncTrace ++
  [.locked .flush, .locked (.flushAsync [0]), .locked (.flushAsync [0]), .flushUnlock,
    .locked (.batcher "east" (.copyReturns 0 1 none)),
    .locked (.batcher "east" (.finishPart 0)), .locked (.batcher "east" (.resolve 0)),
    .locked (.batcher "east" (.awaitFuture 0)), .locked (.batcher "east" (.flushReturns 0)),
    .wait 0 .poll, .wait 0 (.cancelContext (.external ()))]

theorem flush_waits_for_its_flushes_two_sites :
    ∃ st w, Reaches (AsyncStore.step siteStore siteCopy) (asyncSites flushTrace) st ∧
      st.copy = (asyncSites flushTrace).copy ∧ st.waits[0]? = some w ∧ w.result ≠ none := by
  have hrun : Reaches (AsyncStore.step siteStore siteCopy) (.initial sitesStart)
      (asyncSites flushTrace) := ⟨flushTrace, rfl⟩
  have hwait : (asyncSites flushTrace).waits[0]? =
      some ⟨0, [("west", 0)], false, some (.external ()), [], none⟩ := rfl
  obtain ⟨f, -, -, hends⟩ := flush_waits_for_its_flushes sitesStart_initial hrun hwait
  exact hends rfl (.inl (by simp))

end PgMesh.Store
