import PgMesh.Store.CopyFrom
import PgMesh.Store.FlushBarrier

/-!
# Asynchronous and synchronous COPY agree

Both methods hand the same rows to the same replica sets.  When every physical
COPY succeeds, both report the length of the input, however the batchers split
the rows and join them with those of other calls.
-/

namespace PgMesh.Store

open PgMesh.Foundation
open PgMesh.Topology
open PgMesh.Copy
open PgMesh.Copy.Batcher (Reply)

variable {ρ κ A Item α ε : Type}

namespace CopyBatchState

/-! ## The future of a call -/

def awaitResult (st : CopyBatchState Item ρ α ε) (result : String × Reply ε) :
    Option (Int64 × Option (GoError ε)) :=
  match result.2 with
  | .resolved value err => some (value, err)
  | .pending request =>
      (GoMap.get? st.batchers result.1).bind (·.outcome request)

/-- The loop over `asyncResults`; `none` means that a future is not resolved yet. -/
def awaitResults (q : CopyQuery Item A α) (st : CopyBatchState Item ρ α ε) :
    Int64 → List (GoError ε) → List (String × Reply ε) →
      Option (Int64 × Option (GoError ε))
  | count, copyErrors, [] =>
      match GoError.join copyErrors with
      | some err => some (0, some err)
      | none => some (count, none)
  | count, copyErrors, asyncResult :: asyncResults =>
      match st.awaitResult asyncResult with
      | none => none
      | some (_, some err) =>
          st.awaitResults q count
            (copyErrors ++ [shardError q.methodName asyncResult.1 err]) asyncResults
      | some (shardCount, none) =>
          st.awaitResults q (count + shardCount) copyErrors asyncResults

/--
The future that a call of `CopyXAsync` returns.  A resolved future keeps its
value, so the order in which the loop waits for them does not matter.
-/
def combined (q : CopyQuery Item A α) (st : CopyBatchState Item ρ α ε)
    (call : CopyCall Item ρ α ε) : Option (Int64 × Option (GoError ε)) :=
  st.awaitResults q 0 [] call.asyncResults

theorem awaitResults_of_success {q : CopyQuery Item A α}
    {st : CopyBatchState Item ρ α ε} {groups : List (CopyShardGroup ρ α)}
    {asyncResults : List (String × Reply ε)}
    (h : List.Forall₂ (fun group result => st.awaitResult result =
      some (Int64.ofNat group.args.length, none)) groups asyncResults)
    (start : Nat) :
    st.awaitResults q (Int64.ofNat start) [] asyncResults =
      some (Int64.ofNat (start + (groups.map (·.args.length)).sum), none) := by
  induction h generalizing start with
  | nil => simp [awaitResults]
  | @cons group result groups results hhead _ ih =>
      simp only [awaitResults, hhead]
      rw [← Int64.ofNat_add, ih, List.map_cons, List.sum_cons, Nat.add_assoc]

theorem awaitResult_of_awaitResults {q : CopyQuery Item A α}
    {st : CopyBatchState Item ρ α ε} {asyncResults : List (String × Reply ε)}
    {count : Int64} {copyErrors : List (GoError ε)}
    (h : st.awaitResults q count copyErrors asyncResults ≠ none) :
    ∀ result ∈ asyncResults, st.awaitResult result ≠ none := by
  induction asyncResults generalizing count copyErrors with
  | nil => exact nofun
  | cons head results ih =>
      intro result hresult
      simp only [awaitResults] at h
      split at h
      · exact absurd rfl h
      all_goals
        rename_i hhead
        rcases List.mem_cons.mp hresult with rfl | hresult
        · simp [hhead]
        · exact ih h result hresult

/-- Every physical COPY that a call's rows were in has succeeded. -/
def Succeeded (st : CopyBatchState Item ρ α ε) (call : CopyCall Item ρ α ε) :
    Prop :=
  ∀ shardName b request, st.Fragment call shardName b request →
    ∀ runner ∈ b.own request,
      runner.outcome = some (Int64.ofNat runner.batch.rows.length, none)

/-- All rows of a call are placed and every batch that they were in has exited. -/
def Finished (st : CopyBatchState Item ρ α ε) (call : CopyCall Item ρ α ε) :
    Prop :=
  call.remaining = [] ∧
    ∀ shardName b request, st.Fragment call shardName b request →
      ¬b.Unplaced request ∧ (∀ batch ∈ b.waiting, request ∉ batch.requests) ∧
        ∀ runner ∈ b.own request, runner.phase = .exited

section Call

variable [Named ρ] [Inhabited κ] {s : MeshStore ρ κ A} {q : CopyQuery Item A α}
  {st : CopyBatchState Item ρ α ε} {call : CopyCall Item ρ α ε}

theorem Inv.awaitResult_ne_none (h : Inv s q st) (hcall : call ∈ st.calls)
    (hfinished : st.Finished call) :
    ∀ result ∈ call.asyncResults, st.awaitResult result ≠ none := by
  rintro ⟨shardName, reply⟩ hresult
  obtain ⟨submitted, -, hhanded⟩ := h.handed call hcall
  obtain ⟨group, -, -, b, request, hb, hreply, haccepted⟩ :=
    exists_of_mem_right hhanded hresult
  cases hreply
  obtain ⟨hplaced, hwaiting, hexited⟩ :=
    hfinished.2 shardName b request ⟨hresult, hb⟩
  have hlt := (List.getElem?_eq_some_iff.mp haccepted).1
  have hsettled := (h.reachable _ b hb).inv.settled_of_exited hlt hplaced hwaiting
    hexited
  simpa [awaitResult, hb] using hsettled

/-- The counts of a call's fragments, once all are resolved with success. -/
theorem Inv.combined_of_success (h : Inv s q st) (hcall : call ∈ st.calls)
    (hdone : call.remaining = [])
    (hresolved : ∀ result ∈ call.asyncResults, st.awaitResult result ≠ none)
    (hsuccess : st.Succeeded call) :
    st.combined q call = some (Int64.ofNat call.arg.length, none) := by
  obtain ⟨submitted, hsplit, hhanded⟩ := h.handed call hcall
  rw [hdone, List.append_nil] at hsplit
  subst hsplit
  have hcounts : List.Forall₂ (fun (group : CopyShardGroup ρ α) result =>
      st.awaitResult result = some (Int64.ofNat group.args.length, none))
      call.groups call.asyncResults := by
    apply List.forall₂_iff_zip.mpr
    refine ⟨hhanded.length_eq, ?_⟩
    rintro group ⟨shardName, reply⟩ hzip
    have hresult := (List.of_mem_zip hzip).2
    obtain ⟨-, b, request, hb, hreply, haccepted⟩ := List.forall₂_zip hhanded hzip
    cases hreply
    have hne := hresolved _ hresult
    simp only [awaitResult, hb, Option.bind_some] at hne ⊢
    exact (h.reachable _ b hb).inv.outcome_of_success haccepted hne
      (hsuccess shardName b request ⟨hresult, hb⟩)
  have htotal : (call.groups.map (·.args.length)).sum = call.arg.length := by
    obtain ⟨groupsByName, hgrouped, hgroups, htargets⟩ :=
      asyncCopyGroups_ok (h.grouped call hcall)
    rw [← handedOver_length s q call.arg htargets, ← populated_eq hgrouped,
      ← hgroups, List.map_map]
    rfl
  have hsum := awaitResults_of_success (q := q) hcounts 0
  rw [htotal, Nat.zero_add] at hsum
  exact hsum

end Call

end CopyBatchState

open CopyBatchState

variable [Named ρ] [Inhabited κ]

/-- A call whose items all resolve is accepted as soon as the mutex is free. -/
theorem copyAsync_accepted {s : MeshStore ρ κ A} {q : CopyQuery Item A α}
    {st : CopyBatchState Item ρ α ε} (h : Inv s q st) {arg : List Item}
    (htargets : ∀ item ∈ arg, s.targetName? (q.route item) ≠ none) (hne : arg ≠ [])
    (hmu : st.mu = none) :
    ∃ st', st.copyAsync s q arg none = some (st', .accepted st.calls.length) := by
  obtain ⟨groupsByName, hrows⟩ :=
    groupRows_of_targets (ε := ε) (asyncMethodName q) htargets
  obtain ⟨hgrouped, -⟩ := groupRows_ok hrows
  have hgroups : asyncCopyGroups (ε := ε) s q arg =
      .ok (populated s.mesh groupsByName) := by
    simp [asyncCopyGroups, hrows]
  have hnonempty : populated s.mesh groupsByName ≠ [] := by
    intro hnil
    have hlength := handedOver_length s q arg htargets
    rw [← populated_eq hgrouped, hnil] at hlength
    exact hne (List.length_eq_zero_iff.mp hlength.symm)
  have hfind : (populated s.mesh groupsByName).find? (fun group =>
      (GoMap.get? st.batchers group.shard.replicaSetName).isNone) = none := by
    rw [List.find?_eq_none]
    intro group hgroup
    have hset := (mem_populated hgrouped hgroup).1
    rw [Option.isNone_iff_eq_none]
    exact h.domain _ hset
  unfold copyAsync
  simp only [hgroups, List.length_eq_zero_iff, if_neg hnonempty, hmu, hfind]
  exact ⟨_, rfl⟩

/--
The asynchronous and the synchronous COPY of the same input.  When an item
does not resolve, neither hands over any row.  Otherwise both hand over the
same rows to the same replica sets, and when every physical COPY succeeds both
report the length of the input.
-/
theorem async_copy_agrees_with_copy {s : MeshStore ρ κ A}
    {q : CopyQuery Item A α} {configured : Option CopyBatchConfig}
    {start st : CopyBatchState Item ρ α ε}
    (hstart : initializeCopyBatchers s q configured = .ok start)
    (hrun : Reaches (CopyBatchState.step s q) start st) (arg : List Item) :
    ((∃ item ∈ arg, s.targetName? (q.route item) = none) →
      (∃ err, copyGroups (ε := ε) s q arg false = .error err ∧
        ∀ completions, copyFrom s q arg false completions = (0, some err)) ∧
      (∀ ctxErr, ∃ err,
        st.copyAsync s q arg ctxErr = some (st, .resolved 0 (some err))) ∧
      ∀ call ∈ st.calls, call.arg ≠ arg) ∧
    ((∀ item ∈ arg, s.targetName? (q.route item) ≠ none) →
      (∃ groups, copyGroups (ε := ε) s q arg false = .ok groups ∧
        groups.map (fun g => (g.shard.replicaSet, g.args)) =
          handedOver s q arg ∧
        ∀ completions : List (Nat × CopyResult ε),
          Completes (groups.map fun g => ⟨Int64.ofNat g.args.length, none⟩)
            completions →
          copyFrom s q arg false completions =
            (Int64.ofNat arg.length, none)) ∧
      (arg = [] → ∀ ctxErr,
        st.copyAsync s q arg ctxErr = some (st, .resolved 0 none)) ∧
      (arg ≠ [] → st.mu = none → ∃ st',
        st.copyAsync s q arg none = some (st', .accepted st.calls.length)) ∧
      ∀ call ∈ st.calls, call.arg = arg →
        call.groups.map (fun g => (g.shard.replicaSet, g.args)) =
          handedOver s q arg ∧
        (∃ submitted, call.groups = submitted ++ call.remaining ∧
          List.Forall₂ (Handed st.batchers st.enabled) submitted
            call.asyncResults) ∧
        (st.Succeeded call →
          (call.remaining = [] → ∀ result, st.combined q call = some result →
            result = (Int64.ofNat arg.length, none)) ∧
          (st.Finished call →
            st.combined q call = some (Int64.ofNat arg.length, none)))) := by
  have h : Inv s q st :=
    hrun.invariant (initialize_inv hstart) fun h hstep => h.step hstep
  constructor
  · intro hunresolved
    refine ⟨copyFrom_of_unresolved hunresolved, ?_, ?_⟩
    · intro ctxErr
      obtain ⟨err, herr⟩ :=
        groupRows_of_unresolved (ε := ε) (asyncMethodName q) hunresolved
      exact ⟨err, by simp [copyAsync, asyncCopyGroups, herr]⟩
    · rintro call hcall rfl
      obtain ⟨item, hitem, hnone⟩ := hunresolved
      obtain ⟨-, -, -, htargets⟩ := asyncCopyGroups_ok (h.grouped call hcall)
      exact htargets item hitem hnone
  · intro htargets
    obtain ⟨groups, hok, hgroups⟩ := copyGroups_of_targets (ε := ε) htargets
    refine ⟨⟨groups, hok, hgroups, fun _ => copyFrom_of_success htargets hok hgroups⟩,
      ?_, copyAsync_accepted h htargets, ?_⟩
    · rintro rfl ctxErr
      simp [copyAsync, asyncCopyGroups, groupRows, populated]
    · rintro call hcall rfl
      obtain ⟨groupsByName, hgrouped, hpopulated, -⟩ :=
        asyncCopyGroups_ok (h.grouped call hcall)
      refine ⟨by rw [hpopulated, populated_eq hgrouped], h.handed call hcall, ?_⟩
      intro hsuccess
      constructor
      · intro hdone result hresult
        have hresolved := awaitResult_of_awaitResults
          (show st.combined q call ≠ none by simp [hresult])
        rw [h.combined_of_success hcall hdone hresolved hsuccess] at hresult
        exact (Option.some.inj hresult).symm
      · intro hfinished
        exact h.combined_of_success hcall hfinished.1
          (h.awaitResult_ne_none hcall hfinished) hsuccess

/-! ## A run

The first call of the run over two sites, and an input with an item that
resolves nowhere.
-/

theorem sitesCall_fragment {shardName : String} {b : Batcher Nat Unit}
    {request : Nat} (h : sitesEnd.Fragment (sitesCall 0) shardName b request) :
    (shardName = "east" ∨ shardName = "west") ∧ request = 0 := by
  rcases List.mem_cons.mp h.1 with heq | hmem
  · cases heq
    exact ⟨.inl rfl, rfl⟩
  · cases List.mem_singleton.mp hmem
    exact ⟨.inr rfl, rfl⟩

theorem sitesCall_succeeded : sitesEnd.Succeeded (sitesCall 0) := by
  intro shardName b request hfragment runner hrunner
  obtain ⟨rfl | rfl, rfl⟩ := sitesCall_fragment hfragment
  all_goals
    cases hfragment.2
    cases List.mem_singleton.mp hrunner
    rfl

theorem sitesCall_finished : sitesEnd.Finished (sitesCall 0) := by
  refine ⟨rfl, ?_⟩
  intro shardName b request hfragment
  obtain ⟨rfl | rfl, rfl⟩ := sitesCall_fragment hfragment
  all_goals
    cases hfragment.2
    refine ⟨?_, nofun, ?_⟩
    · rintro ⟨holder, held, hrequest, -⟩
      cases held <;> cases hrequest
    · intro runner hrunner
      cases List.mem_singleton.mp hrunner
      rfl

theorem async_copy_agrees_with_copy_two_sites :
    sitesEnd.combined siteCopy (sitesCall 0) = some (2, none) ∧
    (∀ completions : List (Nat × CopyResult Unit),
      Completes [⟨1, none⟩, ⟨1, none⟩] completions →
        copyFrom siteStore siteCopy [0, 1] false completions = (2, none)) ∧
    ∃ err, sitesEnd.copyAsync siteStore siteCopy [0, 7] none =
      some (sitesEnd, .resolved 0 (some err)) := by
  have hresolve : ∀ item ∈ [0, 1], siteStore.targetName? (siteCopy.route item) ≠ none := by
    decide
  have hunresolved : ∃ item ∈ [0, 7], siteStore.targetName? (siteCopy.route item) = none := by
    decide
  obtain ⟨⟨groups, hgroups, -, hcopy⟩, -, -, hcalls⟩ :=
    (async_copy_agrees_with_copy sitesStart_initial sitesEnd_reached [0, 1]).2 hresolve
  obtain ⟨-, hasync, -⟩ :=
    (async_copy_agrees_with_copy sitesStart_initial sitesEnd_reached [0, 7]).1
      hunresolved
  cases hgroups
  obtain ⟨-, -, hcombined⟩ := hcalls (sitesCall 0) List.mem_cons_self rfl
  exact ⟨(hcombined sitesCall_succeeded).2 sitesCall_finished, hcopy, hasync none⟩

end PgMesh.Store
