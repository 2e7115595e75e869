import PgMesh.Store.AsyncRuns

/-!
# The futures and the spans of the asynchronous COPY

Over every interleaving of the calls, the goroutines that they start, the
batchers and the flushes: the future that a caller of `CopyXAsync` has is resolved
once, with what the combined futures of its groups give, after the span of the call
has ended; and no span ends while a physical COPY of the call's rows runs.
-/

namespace PgMesh.Store

open PgMesh.Foundation
open PgMesh.Topology
open PgMesh.Copy
open PgMesh.Copy.Batcher (Reply)
open CopyBatchState (Later BatchersReachable)

variable {ρ κ A Item α ε : Type}

/-! ## The store -/

theorem AsyncCall.step_phase {q : CopyQuery Item A α} {st : CopyBatchState Item ρ α ε}
    {c c' : AsyncCall ε} {label : CallStep} (hstep : c.step q st label = some c') :
    c'.phase.call? = c.phase.call? ∧
      ∀ i, c'.phase = .submitting i ↔ c.phase = .submitting i := by
  cases label with
  | awaitPart =>
      change c.awaitPart q st = some c' at hstep
      unfold AsyncCall.awaitPart at hstep
      split at hstep
      · rename_i hphase
        split at hstep
        · cases hstep
        all_goals
          cases hstep
          simp [hphase, CallPhase.call?]
      · cases hstep
  | combinedReturns =>
      change c.combinedReturns = some c' at hstep
      unfold AsyncCall.combinedReturns at hstep
      split at hstep
      · rename_i hphase
        split at hstep
        all_goals
          cases hstep
          simp [hphase, CallPhase.call?]
      · cases hstep
  | endSpan =>
      change c.endSpan = some c' at hstep
      unfold AsyncCall.endSpan at hstep
      split at hstep
      · cases hstep
        exact ⟨rfl, fun _ => Iff.rfl⟩
      · cases hstep
  | finishReturns =>
      change c.finishReturns = some c' at hstep
      unfold AsyncCall.finishReturns at hstep
      split at hstep
      · cases hstep
        exact ⟨rfl, fun _ => Iff.rfl⟩
      · cases hstep

namespace AsyncStore

variable [Named ρ] [Inhabited κ] {s : MeshStore ρ κ A} {q : CopyQuery Item A α}
  {st st' : AsyncStore Item ρ α ε}

/-- The goroutines of the accepted calls: one call is submitting while it holds the mutex. -/
structure Matched (st : AsyncStore Item ρ α ε) : Prop where
  accepted : ∀ i < st.copy.calls.length, ∃ (k : Nat) (c : AsyncCall ε),
    st.asyncCalls[k]? = some c ∧ c.phase.call? = some i
  bounded : ∀ c ∈ st.asyncCalls, ∀ i, c.phase.call? = some i → i < st.copy.calls.length
  unique : ∀ (k k' : Nat) (c c' : AsyncCall ε) (i : Nat), st.asyncCalls[k]? = some c →
    st.asyncCalls[k']? = some c' → c.phase.call? = some i → c'.phase.call? = some i → k = k'
  holding : ∀ c ∈ st.asyncCalls, ∀ i, c.phase.call? = some i →
    (c.phase = .submitting i ↔ st.copy.mu = some (.copying i))

structure Inv (s : MeshStore ρ κ A) (q : CopyQuery Item A α)
    (st : AsyncStore Item ρ α ε) : Prop where
  copy : CopyBatchState.Inv s q st.copy
  calls : ∀ c ∈ st.asyncCalls, c.Inv q st.copy
  matched : st.Matched

theorem initial_inv {configured : Option CopyBatchConfig}
    {start : CopyBatchState Item ρ α ε}
    (h : CopyBatchState.initializeCopyBatchers s q configured = .ok start) :
    (initial start).Inv s q := by
  have hcalls : start.calls = [] := by
    unfold CopyBatchState.initializeCopyBatchers at h
    split at h
    · cases h
    · cases h
      rfl
  refine ⟨CopyBatchState.initialize_inv h, by simp [initial], ?_⟩
  constructor <;> simp [initial, hcalls]

omit [Named ρ] in
/-- The goroutines stay matched when the calls and the holder of the mutex do. -/
theorem Matched.congr (h : st.Matched) {copy : CopyBatchState Item ρ α ε}
    {asyncCalls : List (AsyncCall ε)} {waits : List (FlushWait ε)}
    (hlength : copy.calls.length = st.copy.calls.length)
    (hmu : ∀ i, copy.mu = some (.copying i) ↔ st.copy.mu = some (.copying i))
    (hcalls : ∀ (k : Nat) (c' : AsyncCall ε), asyncCalls[k]? = some c' → ∃ c, st.asyncCalls[k]? = some c ∧
      c'.phase.call? = c.phase.call? ∧ ∀ i, c'.phase = .submitting i ↔ c.phase = .submitting i)
    (hcount : asyncCalls.length = st.asyncCalls.length) :
    (⟨copy, asyncCalls, waits⟩ : AsyncStore Item ρ α ε).Matched where
  accepted := by
    intro i hi
    rw [hlength] at hi
    obtain ⟨k, c, hc, hphase⟩ := h.accepted i hi
    have hk : k < asyncCalls.length := hcount ▸ (List.getElem?_eq_some_iff.mp hc).1
    obtain ⟨c₀, hc₀, hsame, -⟩ := hcalls k _ (List.getElem?_eq_getElem hk)
    rw [hc] at hc₀
    cases hc₀
    exact ⟨k, _, List.getElem?_eq_getElem hk, hsame.trans hphase⟩
  bounded := by
    intro c' hc' i hi
    obtain ⟨k, hk⟩ := List.mem_iff_getElem?.mp hc'
    obtain ⟨c, hc, hsame, -⟩ := hcalls k c' hk
    rw [hsame] at hi
    change i < copy.calls.length
    rw [hlength]
    exact h.bounded c (List.mem_of_getElem? hc) i hi
  unique := by
    intro k k' c c' i hk hk' hi hi'
    obtain ⟨c₀, hc₀, hsame, -⟩ := hcalls k c hk
    obtain ⟨c₀', hc₀', hsame', -⟩ := hcalls k' c' hk'
    rw [hsame] at hi
    rw [hsame'] at hi'
    exact h.unique k k' c₀ c₀' i hc₀ hc₀' hi hi'
  holding := by
    intro c' hc' i hi
    obtain ⟨k, hk⟩ := List.mem_iff_getElem?.mp hc'
    obtain ⟨c, hc, hsame, hsubmitting⟩ := hcalls k c' hk
    rw [hsame] at hi
    rw [hsubmitting i]
    exact (h.holding c (List.mem_of_getElem? hc) i hi).trans (hmu i).symm

omit [Named ρ] in
/-- A new call starts; if it is accepted, it is the last one and has the mutex. -/
theorem Matched.append (h : st.Matched) {copy : CopyBatchState Item ρ α ε} {c : AsyncCall ε}
    (hlength : st.copy.calls.length ≤ copy.calls.length)
    (hlast : ∀ i, st.copy.calls.length ≤ i → i < copy.calls.length → c.phase.call? = some i)
    (hown : ∀ i, c.phase.call? = some i → st.copy.calls.length ≤ i ∧
      i < copy.calls.length ∧ (c.phase = .submitting i ↔ copy.mu = some (.copying i)))
    (hmu : ∀ i < st.copy.calls.length,
      copy.mu = some (.copying i) ↔ st.copy.mu = some (.copying i)) :
    (⟨copy, st.asyncCalls ++ [c], st.waits⟩ : AsyncStore Item ρ α ε).Matched where
  accepted := by
    intro i hi
    by_cases hold : i < st.copy.calls.length
    · obtain ⟨k, d, hd, hphase⟩ := h.accepted i hold
      have hk := (List.getElem?_eq_some_iff.mp hd).1
      exact ⟨k, d, (List.getElem?_append_left hk).trans hd, hphase⟩
    · exact ⟨st.asyncCalls.length, c, List.getElem?_concat_length,
        hlast i (Nat.le_of_not_lt hold) hi⟩
  bounded := by
    intro d hd i hi
    rcases List.mem_append.mp hd with hd | hd
    · exact Nat.lt_of_lt_of_le (h.bounded d hd i hi) hlength
    · rw [List.mem_singleton.mp hd] at hi
      exact (hown i hi).2.1
  unique := by
    intro k k' d d' i hk hk' hi hi'
    -- The index of the new call is none of the old calls.
    have hnew : ∀ (k : Nat) (d : AsyncCall ε), st.asyncCalls[k]? = some d →
        d.phase.call? = some i → c.phase.call? ≠ some i := by
      intro k d hd hi hc
      have hlt := h.bounded d (List.mem_of_getElem? hd) i hi
      have hle := (hown i hc).1
      omega
    rcases getElem?_append_singleton hk with hd | ⟨rfl, rfl⟩
    · rcases getElem?_append_singleton hk' with hd' | ⟨-, rfl⟩
      · exact h.unique k k' d d' i hd hd' hi hi'
      · exact absurd hi' (hnew k d hd hi)
    · rcases getElem?_append_singleton hk' with hd' | ⟨rfl, -⟩
      · exact absurd hi (hnew k' d' hd' hi')
      · rfl
  holding := by
    intro d hd i hi
    rcases List.mem_append.mp hd with hd | hd
    · exact (h.holding d hd i hi).trans (hmu i (h.bounded d hd i hi)).symm
    · rw [List.mem_singleton.mp hd] at hi ⊢
      exact (hown i hi).2.2

theorem Inv.copyAsync (h : st.Inv s q) {arg : List Item} {ctxErr : Option (GoError ε)}
    (hstep : st.copyAsync s q arg ctxErr = some st') : st'.Inv s q := by
  unfold AsyncStore.copyAsync at hstep
  split at hstep
  · cases hstep
  · rename_i copy reply hcopy
    cases hstep
    obtain ⟨hlater, hreply⟩ := CopyBatchState.later_copyAsync hcopy
    refine ⟨h.copy.copyAsync hcopy, ?_, ?_⟩
    · intro c hc
      rcases List.mem_append.mp hc with hc | hc
      · exact (h.calls c hc).later h.copy.reachable hlater
      · rw [List.mem_singleton.mp hc]
        exact AsyncCall.start_inv q copy reply
    · rcases hreply with ⟨value, err, rfl, rfl⟩ | ⟨groups, rfl, hmu, -, rfl⟩
      · -- The call was rejected: it has no index.
        refine h.matched.append (Nat.le_refl _) ?_ nofun fun _ _ => Iff.rfl
        intro i hle hlt
        exact absurd hlt (Nat.not_lt.mpr hle)
      · refine h.matched.append (by simp) ?_ ?_ ?_
        · intro i hle hlt
          rw [List.length_append, List.length_singleton] at hlt
          have hi : st.copy.calls.length = i := by omega
          rw [← hi]
          rfl
        · intro i hi
          cases hi
          exact ⟨Nat.le_refl _, by simp, fun _ => rfl, fun _ => rfl⟩
        · intro i hi
          have hne : st.copy.calls.length ≠ i := by omega
          simp [hmu, hne]

theorem Inv.copyUnlock (h : st.Inv s q) {index : Nat}
    (hstep : st.copyUnlock index = some st') :
    st.copy.step s q .copyUnlock = some st'.copy ∧ st'.Inv s q := by
  unfold AsyncStore.copyUnlock at hstep
  split at hstep
  · rename_i i c hmu hc
    split at hstep
    · rename_i own call copy hphase hcall hcopy
      split at hstep
      · rename_i hown
        cases hstep
        subst hown
        obtain ⟨rfl, i', call', hmu', hcall', hdone⟩ := CopyBatchState.later_copyUnlock hcopy
        rw [hmu] at hmu'
        cases hmu'
        rw [hcall] at hcall'
        cases hcall'
        refine ⟨hcopy, h.copy.copyUnlock hcopy, ?_, ?_⟩
        · intro d hd
          have hlater := Later.unlock st.copy
          rcases List.mem_or_eq_of_mem_set hd with hd | rfl
          · exact (h.calls d hd).later h.copy.reachable hlater
          · exact ((h.calls c (List.mem_of_getElem? hc)).combine hphase hcall hdone).later
              h.copy.reachable hlater
        · -- The call that had the mutex is the only one that was submitting.
          have hindex : ∀ k d, st.asyncCalls[k]? = some d →
              d.phase.call? = some own → k = index := by
            intro k d hd hi
            exact h.matched.unique k index d c own hd hc hi (by rw [hphase]; rfl)
          refine ⟨?_, ?_, ?_, ?_⟩
          · intro i hi
            obtain ⟨k, d, hd, hi⟩ := h.matched.accepted i hi
            by_cases hk : index = k
            · subst hk
              rw [hc] at hd
              cases hd
              have hset := List.getElem?_set_self (a := c.combine call.asyncResults own)
                (List.getElem?_eq_some_iff.mp hc).1
              rw [hphase] at hi
              exact ⟨index, _, hset, hi⟩
            · exact ⟨k, d, by rw [List.getElem?_set_ne hk, hd], hi⟩
          · intro d hd i hi
            rcases List.mem_or_eq_of_mem_set hd with hd | rfl
            · exact h.matched.bounded d hd i hi
            · cases hi
              exact (List.getElem?_eq_some_iff.mp hcall).1
          · intro k k' d d' i hk hk' hi hi'
            rcases getElem?_set_cases hk with ⟨rfl, rfl⟩ | ⟨-, hd⟩
            · cases hi
              rcases getElem?_set_cases hk' with ⟨rfl, -⟩ | ⟨-, hd'⟩
              · rfl
              · exact (hindex k' d' hd' hi').symm
            · rcases getElem?_set_cases hk' with ⟨rfl, rfl⟩ | ⟨-, hd'⟩
              · cases hi'
                exact hindex k d hd hi
              · exact h.matched.unique k k' d d' i hd hd' hi hi'
          · intro d hd i hi
            obtain ⟨k, hk⟩ := List.mem_iff_getElem?.mp hd
            constructor
            · intro hsubmitting
              rcases getElem?_set_cases hk with ⟨rfl, rfl⟩ | ⟨hne, hk⟩
              · cases hsubmitting
              · have hholding :=
                  (h.matched.holding d (List.mem_of_getElem? hk) i hi).mp hsubmitting
                rw [hmu] at hholding
                cases hholding
                exact absurd (hindex k d hk hi) hne
            · nofun
      · cases hstep
    · cases hstep
  · cases hstep

theorem Inv.flushUnlock (h : st.Inv s q) (hstep : st.flushUnlock = some st') :
    st.copy.step s q .flushUnlock = some st'.copy ∧ st'.Inv s q := by
  unfold AsyncStore.flushUnlock at hstep
  split at hstep
  · rename_i j hmu
    split at hstep
    · rename_i f copy hf hcopy
      cases hstep
      obtain ⟨rfl, -⟩ := CopyBatchState.later_flushUnlock hcopy
      refine ⟨hcopy, h.copy.flushUnlock hcopy, ?_, ?_⟩
      · intro c hc
        exact (h.calls c hc).later h.copy.reachable (.unlock st.copy)
      · refine h.matched.congr rfl (by simp [hmu]) ?_ rfl
        intro k c hc
        exact ⟨c, hc, rfl, fun _ => Iff.rfl⟩
    · cases hstep
  · cases hstep

end AsyncStore

/-- The other steps of the batching state accept no call and release no mutex. -/
theorem CopyBatchState.silent_step [Named ρ] [Inhabited κ] {s : MeshStore ρ κ A}
    {q : CopyQuery Item A α} {st st' : CopyBatchState Item ρ α ε}
    {action : AsyncAction Item α ε} (hsilent : action.silent = true)
    (hstep : st.step s q action = some st') :
    st'.calls.length = st.calls.length ∧
      ∀ i, st'.mu = some (.copying i) ↔ st.mu = some (.copying i) := by
  cases action with
  | copyAsync arg ctxErr => cases hsilent
  | copyUnlock => cases hsilent
  | flushUnlock => cases hsilent
  | submit =>
      obtain ⟨i, call, group, remaining, b, b', reply, -, -, -, -, -, rfl⟩ :=
        submit_cases hstep
      exact ⟨List.length_set, fun _ => Iff.rfl⟩
  | flush =>
      change st.flush s = some st' at hstep
      unfold CopyBatchState.flush at hstep
      split at hstep
      · cases hstep
      · rename_i hmu
        cases hstep
        exact ⟨rfl, by simp [hmu]⟩
  | flushAsync order =>
      change st.flushAsync order = some st' at hstep
      unfold CopyBatchState.flushAsync at hstep
      split at hstep
      · split at hstep
        · split at hstep
          · cases hstep
            exact ⟨rfl, fun _ => Iff.rfl⟩
          · split at hstep
            · cases hstep
            · cases hstep
              exact ⟨rfl, fun _ => Iff.rfl⟩
        · cases hstep
      · cases hstep
  | batcher shardName action =>
      change st.batcherStep shardName action = some st' at hstep
      unfold CopyBatchState.batcherStep at hstep
      split at hstep
      · cases hstep
      · split at hstep
        · cases hstep
        · split at hstep
          · cases hstep
          · cases hstep
            exact ⟨rfl, fun _ => Iff.rfl⟩

namespace AsyncStore

variable [Named ρ] [Inhabited κ] {s : MeshStore ρ κ A} {q : CopyQuery Item A α}
  {st st' : AsyncStore Item ρ α ε}

theorem Inv.locked (h : st.Inv s q) {action : AsyncAction Item α ε}
    {copy : CopyBatchState Item ρ α ε} (hsilent : action.silent = true)
    (hstep : st.copy.step s q action = some copy) : { st with copy := copy }.Inv s q := by
  obtain ⟨hlength, hmu⟩ := CopyBatchState.silent_step hsilent hstep
  refine ⟨h.copy.step hstep, ?_, h.matched.congr hlength hmu ?_ rfl⟩
  · intro c hc
    exact (h.calls c hc).later h.copy.reachable (CopyBatchState.later_step hstep)
  · intro k c hc
    exact ⟨c, hc, rfl, fun _ => Iff.rfl⟩

theorem Inv.call (h : st.Inv s q) {index : Nat} {c c' : AsyncCall ε} {label : CallStep}
    (hc : st.asyncCalls[index]? = some c) (hstep : c.step q st.copy label = some c') :
    { st with asyncCalls := st.asyncCalls.set index c' }.Inv s q := by
  refine ⟨h.copy, ?_, h.matched.congr rfl (fun _ => Iff.rfl) ?_ List.length_set⟩
  · intro d hd
    rcases List.mem_or_eq_of_mem_set hd with hd | rfl
    · exact h.calls d hd
    · exact (h.calls c (List.mem_of_getElem? hc)).step h.copy.reachable hstep
  · intro k d hd
    rcases getElem?_set_cases hd with ⟨rfl, rfl⟩ | ⟨-, hd⟩
    · exact ⟨c, hc, AsyncCall.step_phase hstep⟩
    · exact ⟨d, hd, rfl, fun _ => Iff.rfl⟩

theorem Inv.wait (h : st.Inv s q) (waits : List (FlushWait ε)) :
    { st with waits := waits }.Inv s q :=
  ⟨h.copy, h.calls, h.matched.congr rfl (fun _ => Iff.rfl)
    (fun _ c hc => ⟨c, hc, rfl, fun _ => Iff.rfl⟩) rfl⟩

/--
Each step keeps the invariant and is a step of the batching state, or one of the
goroutines that leaves the batching state as it is.
-/
theorem Inv.step (h : st.Inv s q) {action : StoreAction Item α ε}
    (hstep : st.step s q action = some st') :
    st'.Inv s q ∧ Reaches (CopyBatchState.step s q) st.copy st'.copy := by
  cases action with
  | copyAsync arg ctxErr =>
      refine ⟨h.copyAsync hstep, ?_⟩
      change st.copyAsync s q arg ctxErr = some st' at hstep
      unfold AsyncStore.copyAsync at hstep
      split at hstep
      · cases hstep
      · rename_i copy reply hcopy
        cases hstep
        have hlocked : st.copy.step s q (.copyAsync arg ctxErr) = some copy := by
          simp [CopyBatchState.step, hcopy]
        exact .single hlocked
  | copyUnlock index =>
      obtain ⟨hcopy, hinv⟩ := h.copyUnlock hstep
      exact ⟨hinv, .single hcopy⟩
  | flushUnlock =>
      obtain ⟨hcopy, hinv⟩ := h.flushUnlock hstep
      exact ⟨hinv, .single hcopy⟩
  | locked action =>
      simp only [AsyncStore.step] at hstep
      split at hstep
      · rename_i hsilent
        obtain ⟨copy, hcopy, rfl⟩ := Option.map_eq_some_iff.mp hstep
        exact ⟨h.locked hsilent hcopy, .single hcopy⟩
      · cases hstep
  | call index label =>
      simp only [AsyncStore.step] at hstep
      split at hstep
      · cases hstep
      · rename_i c hc
        obtain ⟨c', hc', rfl⟩ := Option.map_eq_some_iff.mp hstep
        exact ⟨h.call hc hc', .refl _⟩
  | wait index label =>
      simp only [AsyncStore.step] at hstep
      split at hstep
      · cases hstep
      · rename_i w hw
        obtain ⟨w', hw', rfl⟩ := Option.map_eq_some_iff.mp hstep
        exact ⟨h.wait _, .refl _⟩

theorem Inv.reaches (h : st.Inv s q) (hrun : Reaches (AsyncStore.step s q) st st') :
    st'.Inv s q ∧ Reaches (CopyBatchState.step s q) st.copy st'.copy := by
  have hboth := hrun.invariant (P := fun t => t.Inv s q ∧
    Reaches (CopyBatchState.step s q) st.copy t.copy) ⟨h, .refl _⟩
  refine hboth ?_
  intro t label u ht hstep
  obtain ⟨hinv, hcopy⟩ := ht.1.step hstep
  exact ⟨hinv, ht.2.trans hcopy⟩

end AsyncStore

/-! ## The goroutines of a call end -/

namespace AsyncCall

variable {q : CopyQuery Item A α} {st : CopyBatchState Item ρ α ε} {c : AsyncCall ε}
  {v : Int64 × Option (GoError ε)}

theorem Inv.finish_completes (h : c.Inv q st) (hv : c.future.outcome = some v) :
    ∃ c', Reaches (AsyncCall.step q st) c c' ∧ c'.result.outcome = some v := by
  obtain ⟨count, err⟩ := v
  have hends : ∀ d : AsyncCall ε, d.finish = .ended count err → d.result.outcome = none →
      ∃ c', Reaches (AsyncCall.step q st) d c' ∧ c'.result.outcome = some (count, err) := by
    intro d hd hresult
    have hstep : d.step q st .finishReturns =
        some { d with finish := .returned, result := d.result.resolve count err } := by
      simp [AsyncCall.step, AsyncCall.finishReturns, hd]
    exact ⟨_, .single hstep, by rw [Future.resolve_of_pending hresult]⟩
  have hfinishing := h.finishing
  rw [hv] at hfinishing
  generalize hfinish : c.finish = finish, hspan : c.spanEnds = spanEnds,
    hresult : c.result.outcome = result at hfinishing
  cases hfinishing with
  | awaiting =>
      have hstep : c.step q st .endSpan =
          some { c with finish := .ended count err, spanEnds := c.spanEnds ++ [err] } := by
        simp [AsyncCall.step, AsyncCall.endSpan, hfinish, Future.await, hv]
      obtain ⟨c', hrun, hdone⟩ := hends
        { c with finish := .ended count err, spanEnds := c.spanEnds ++ [err] } rfl hresult
      exact ⟨c', (Reaches.single hstep).trans hrun, hdone⟩
  | ended => exact hends c hfinish hresult
  | returned => exact ⟨c, .refl c, hresult⟩

/-- The goroutine of `combined` awaits the futures that are left and returns. -/
theorem Inv.combining_completes (h : c.Inv q st) (hreach : st.BatchersReachable) {i : Nat}
    {rest : List (String × Reply ε)} {count : Int64} {copyErrors : List (GoError ε)}
    (hphase : c.phase = .combining i rest count copyErrors)
    (hv : st.awaitResults q count copyErrors rest = some v) :
    ∃ c', Reaches (AsyncCall.step q st) c c' ∧ c'.Inv q st ∧ c'.future.outcome = some v := by
  induction rest generalizing c count copyErrors with
  | nil =>
      have hpending : c.future.outcome = none := by
        have hsettling := h.settling
        rw [hphase] at hsettling
        generalize c.future.outcome = outcome at hsettling
        cases hsettling with
        | combining => rfl
      simp only [CopyBatchState.awaitResults] at hv
      cases hjoin : GoError.join copyErrors with
      | none =>
          simp only [hjoin, Option.some.injEq] at hv
          have hstep : c.step q st .combinedReturns = some { c with
              phase := .combined i, future := c.future.resolve count none } := by
            simp [AsyncCall.step, AsyncCall.combinedReturns, hphase, hjoin]
          refine ⟨_, .single hstep, h.step hreach hstep, ?_⟩
          rw [← hv, Future.resolve_of_pending hpending]
      | some err =>
          simp only [hjoin, Option.some.injEq] at hv
          have hstep : c.step q st .combinedReturns = some { c with
              phase := .combined i, future := c.future.resolve 0 (some err) } := by
            simp [AsyncCall.step, AsyncCall.combinedReturns, hphase, hjoin]
          refine ⟨_, .single hstep, h.step hreach hstep, ?_⟩
          rw [← hv, Future.resolve_of_pending hpending]
  | cons result rest ih =>
      simp only [CopyBatchState.awaitResults] at hv
      cases hresult : st.awaitResult result with
      | none => simp [hresult] at hv
      | some w =>
          obtain ⟨shardCount, err⟩ := w
          rw [hresult] at hv
          cases err with
          | none =>
              have hstep : c.step q st .awaitPart = some { c with
                  phase := .combining i rest (count + shardCount) copyErrors } := by
                simp [AsyncCall.step, AsyncCall.awaitPart, hphase, hresult]
              obtain ⟨c', hrun, hdone⟩ := ih (h.step hreach hstep) rfl hv
              exact ⟨c', (Reaches.single hstep).trans hrun, hdone⟩
          | some err =>
              have hstep : c.step q st .awaitPart = some { c with
                  phase := .combining i rest count
                    (copyErrors ++ [shardError q.methodName result.1 err]) } := by
                simp [AsyncCall.step, AsyncCall.awaitPart, hphase, hresult]
              obtain ⟨c', hrun, hdone⟩ := ih (h.step hreach hstep) rfl hv
              exact ⟨c', (Reaches.single hstep).trans hrun, hdone⟩

end AsyncCall

/-- What a goroutine of a call does is a run of the store that changes nothing else. -/
theorem AsyncStore.reaches_call [Named ρ] [Inhabited κ] (s : MeshStore ρ κ A)
    {q : CopyQuery Item A α} {st : AsyncStore Item ρ α ε} {k : Nat} {c c' : AsyncCall ε}
    (hc : st.asyncCalls[k]? = some c) (hrun : Reaches (AsyncCall.step q st.copy) c c') :
    Reaches (AsyncStore.step s q) st { st with asyncCalls := st.asyncCalls.set k c' } := by
  have hk : k < st.asyncCalls.length := (List.getElem?_eq_some_iff.mp hc).1
  refine hrun.invariant (P := fun d => Reaches (AsyncStore.step s q) st
    { st with asyncCalls := st.asyncCalls.set k d }) ?_ ?_
  · rw [← (List.getElem?_eq_some_iff.mp hc).2, List.set_getElem_self]
    exact .refl st
  · intro d label d' hd hstep
    have hcall : AsyncStore.step s q { st with asyncCalls := st.asyncCalls.set k d }
        (.call k label) = some { st with asyncCalls := st.asyncCalls.set k d' } := by
      simp [AsyncStore.step, List.getElem?_set_self hk, hstep, List.set_set]
    exact hd.tail hcall

/-! ## Every request belongs to a call -/

namespace CopyBatchState

theorem submit_accepted {b b' : Batcher α ε} {rows : List α} {coalesce : Bool}
    {reply : Reply ε} (h : b.submit rows coalesce none none = some (b', reply)) :
    b'.accepted = b.accepted ∨
      b'.accepted.length = b.accepted.length + 1 ∧ reply = .pending b.requests.length := by
  by_cases hrows : rows = []
  · simp only [Batcher.submit, hrows, List.length_nil, if_pos] at h
    cases h
    exact .inl rfl
  · obtain ⟨rfl, rfl⟩ := submit_group hrows h
    exact .inr ⟨by simp [Batcher.accept], rfl⟩

/-- Every request that a batcher has accepted is a fragment of some call. -/
def Owned (st : CopyBatchState Item ρ α ε) : Prop :=
  ∀ (shardName : String) (b : Batcher α ε), GoMap.get? st.batchers shardName = some b →
    ∀ request < b.accepted.length, ∃ call ∈ st.calls,
      (shardName, Reply.pending request) ∈ call.asyncResults

variable [Named ρ] [Inhabited κ] {s : MeshStore ρ κ A} {q : CopyQuery Item A α}
  {st st' : CopyBatchState Item ρ α ε}

omit [Named ρ] in
theorem Owned.setBatcher (h : st.Owned) {shardName : String} {b b' : Batcher α ε}
    (hb : GoMap.get? st.batchers shardName = some b) (hsame : b'.accepted = b.accepted) :
    { st with batchers := GoMap.set st.batchers shardName b' }.Owned := by
  intro other c hc request hrequest
  rw [GoMap.get?_set] at hc
  split at hc
  · rename_i hother
    cases hc
    subst hother
    rw [hsame] at hrequest
    exact h _ b hb request hrequest
  · exact h other c hc request hrequest

theorem Owned.submit (h : st.Owned) (hreach : st.BatchersReachable)
    (hstep : st.submit = some st') : st'.Owned := by
  obtain ⟨i, call, group, remaining, b, b', reply, -, hcall, -, hb, hsubmit, rfl⟩ :=
    submit_cases hstep
  have hi : i < st.calls.length := (List.getElem?_eq_some_iff.mp hcall).1
  -- The changed call keeps the fragments that it had.
  have hkept : ∀ shardName request, (∃ d ∈ st.calls,
      (shardName, Reply.pending request) ∈ d.asyncResults) →
      ∃ d ∈ st.calls.set i ⟨call.arg, call.groups, remaining,
        call.asyncResults ++ [(group.shard.replicaSetName, reply)]⟩,
        (shardName, Reply.pending request) ∈ d.asyncResults := by
    rintro shardName request ⟨d, hd, hfragment⟩
    obtain ⟨j, hj⟩ := List.mem_iff_getElem?.mp hd
    by_cases hij : i = j
    · subst hij
      rw [hcall] at hj
      cases hj
      exact ⟨_, List.mem_of_getElem? (List.getElem?_set_self hi),
        List.mem_append_left _ hfragment⟩
    · exact ⟨d, List.mem_of_getElem? ((List.getElem?_set_ne hij).trans hj), hfragment⟩
  intro shardName c hc request hrequest
  change GoMap.get? (GoMap.set st.batchers _ b') shardName = some c at hc
  rw [GoMap.get?_set] at hc
  split at hc
  · rename_i hother
    cases hc
    subst hother
    rcases submit_accepted hsubmit with hsame | ⟨hlength, rfl⟩
    · rw [hsame] at hrequest
      exact hkept _ _ (h _ b hb request hrequest)
    · rw [hlength] at hrequest
      rcases Nat.lt_succ_iff_lt_or_eq.mp hrequest with hold | rfl
      · exact hkept _ _ (h _ b hb request hold)
      · rw [← (hreach _ b hb).inv.ledger.length]
        exact ⟨_, List.mem_of_getElem? (List.getElem?_set_self hi), by simp⟩
  · exact hkept _ _ (h shardName c hc request hrequest)

theorem Owned.step (h : st.Owned) (hreach : st.BatchersReachable)
    {action : AsyncAction Item α ε} (hstep : st.step s q action = some st') : st'.Owned := by
  cases action with
  | copyAsync arg ctxErr =>
      obtain ⟨⟨next, reply⟩, hcopy, rfl⟩ := Option.map_eq_some_iff.mp hstep
      rcases (later_copyAsync hcopy).2 with ⟨_, _, -, hsame⟩ | ⟨groups, -, -, -, hnext⟩
      · rw [hsame]
        exact h
      · rw [hnext]
        intro shardName b hb request hrequest
        obtain ⟨call, hcall, hfragment⟩ := h shardName b hb request hrequest
        exact ⟨call, List.mem_append_left _ hcall, hfragment⟩
  | submit => exact h.submit hreach hstep
  | copyUnlock =>
      rw [(later_copyUnlock hstep).1]
      exact h
  | flush =>
      change st.flush s = some st' at hstep
      unfold CopyBatchState.flush at hstep
      split at hstep
      · cases hstep
      · cases hstep
        exact h
  | flushAsync order =>
      change st.flushAsync order = some st' at hstep
      unfold CopyBatchState.flushAsync at hstep
      split at hstep
      · split at hstep
        · split at hstep
          · cases hstep
            exact h
          · rename_i b hb
            split at hstep
            · cases hstep
            · rename_i b' hb'
              cases hstep
              have hflush : b.step (.flushAsync order) = some b' := hb'
              exact h.setBatcher hb (Batcher.accepted_step (by simp) hflush)
        · cases hstep
      · cases hstep
  | flushUnlock =>
      rw [(later_flushUnlock hstep).1]
      exact h
  | batcher shardName action =>
      change st.batcherStep shardName action = some st' at hstep
      unfold CopyBatchState.batcherStep at hstep
      split at hstep
      · cases hstep
      · rename_i hown
        split at hstep
        · cases hstep
        · rename_i b hb
          split at hstep
          · cases hstep
          · rename_i b' hb'
            cases hstep
            refine h.setBatcher hb (Batcher.accepted_step ?_ hb')
            rintro rows coalesce ctxErr ctxErrLocked rfl
            exact hown rfl

theorem openBatchers_accepted {config : CopyBatchConfig} (replicaSets : List ρ)
    {batchers batchers' : GoMap String (Batcher α ε)}
    (hnone : ∀ shardName b, GoMap.get? batchers shardName = some b → b.accepted = [])
    (h : openBatchers q config batchers replicaSets = .ok batchers') :
    ∀ shardName b, GoMap.get? batchers' shardName = some b → b.accepted = [] := by
  induction replicaSets generalizing batchers with
  | nil =>
      cases h
      exact hnone
  | cons r replicaSets ih =>
      simp only [openBatchers] at h
      split at h
      · cases h
      · rename_i b hb
        refine ih ?_ h
        intro shardName c hc
        rw [GoMap.get?_set] at hc
        split at hc
        · cases hc
          obtain ⟨accepted, rfl⟩ := newCopyBatcher_eq_ok hb
          rfl
        · exact hnone shardName c hc

omit [Inhabited κ] in
theorem initialize_owned {configured : Option CopyBatchConfig}
    (h : initializeCopyBatchers s q configured = .ok st) : st.Owned := by
  unfold initializeCopyBatchers at h
  split at h
  · cases h
  · rename_i batchers hopen
    cases h
    intro shardName b hb request hrequest
    have hnone : ∀ (name : String) (b : Batcher α ε),
        GoMap.get? ([] : GoMap String (Batcher α ε)) name = some b → b.accepted = [] := by
      intro name b hb
      cases hb
    rw [openBatchers_accepted s.mesh.replicaSets hnone hopen shardName b hb] at hrequest
    cases hrequest

theorem Inv.owned {configured : Option CopyBatchConfig}
    {start : CopyBatchState Item ρ α ε}
    (hstart : initializeCopyBatchers s q configured = .ok start)
    (hrun : Reaches (CopyBatchState.step s q) start st) : st.Owned := by
  have hboth := hrun.invariant (P := fun t => CopyBatchState.Inv s q t ∧ t.Owned)
  refine (hboth ⟨initialize_inv hstart, initialize_owned hstart⟩ ?_).2
  intro t label u ht hstep
  exact ⟨ht.1.step hstep, ht.2.step ht.1.reachable hstep⟩

end CopyBatchState

section Calls

variable [Named ρ] [Inhabited κ] {s : MeshStore ρ κ A} {q : CopyQuery Item A α}
  {configured : Option CopyBatchConfig} {start : CopyBatchState Item ρ α ε}
  {st : AsyncStore Item ρ α ε}

/--
The span of a call of `CopyXAsync` ends at most once, before the future of its caller
is resolved, and with the same error; the future gets what the futures of the groups
give.  As soon as those are resolved, and the call has released the mutex, its own
goroutines resolve the future, whatever the others do.
-/
theorem async_call_settles_after_its_span
    (hstart : CopyBatchState.initializeCopyBatchers s q configured = .ok start)
    (hrun : Reaches (AsyncStore.step s q) (.initial start) st)
    {k : Nat} {c : AsyncCall ε} (hc : st.asyncCalls[k]? = some c) :
    c.spanEnds.length ≤ 1 ∧
    (∀ err ∈ c.spanEnds, ∃ count, c.future.outcome = some (count, err)) ∧
    (∀ count err, c.result.outcome = some (count, err) → c.spanEnds = [err] ∧
      ∀ i, c.phase.call? = some i → ∃ call, st.copy.calls[i]? = some call ∧
        st.copy.combined q call = some (count, err)) ∧
    ∀ i call v, c.phase.call? = some i → st.copy.mu ≠ some (.copying i) →
      st.copy.calls[i]? = some call → st.copy.combined q call = some v →
        ∃ st' c', Reaches (AsyncStore.step s q) st st' ∧ st'.copy = st.copy ∧
          st'.asyncCalls[k]? = some c' ∧ c'.result.outcome = some v := by
  have hinv := ((AsyncStore.initial_inv hstart).reaches hrun).1
  have hmem := List.mem_of_getElem? hc
  have hcall := hinv.calls c hmem
  have hfinishing := hcall.finishing
  refine ⟨?_, ?_, ?_, ?_⟩
  · generalize c.future.outcome = future, c.finish = finish, c.spanEnds = spanEnds,
      c.result.outcome = result at hfinishing
    cases hfinishing with
    | awaiting => exact Nat.zero_le 1
    | ended => exact Nat.le_refl 1
    | returned => exact Nat.le_refl 1
  · intro err herr
    generalize c.future.outcome = future, c.finish = finish, c.spanEnds = spanEnds,
      c.result.outcome = result at hfinishing herr
    cases hfinishing with
    | awaiting => cases herr
    | ended count => exact ⟨count, by rw [List.mem_singleton.mp herr]⟩
    | returned count => exact ⟨count, by rw [List.mem_singleton.mp herr]⟩
  · intro count err hresult
    rw [hresult] at hfinishing
    have hreturned : c.spanEnds = [err] ∧ c.future.outcome = some (count, err) := by
      generalize c.future.outcome = future, c.finish = finish, c.spanEnds = spanEnds
        at hfinishing
      cases hfinishing with
      | returned => exact ⟨rfl, rfl⟩
    refine ⟨hreturned.1, ?_⟩
    intro i hi
    have hsettling := hcall.settling
    rw [hreturned.2] at hsettling
    generalize c.phase = phase at hsettling hi
    cases hsettling with
    | rejected => cases hi
    | combined hfound hdone hv =>
        cases hi
        exact ⟨_, hfound, hv⟩
  · intro i call v hi hreleased hfound hv
    have hsubmitting : c.phase ≠ .submitting i := fun hphase =>
      hreleased ((hinv.matched.holding c hmem i hi).mp hphase)
    have hfuture : ∃ d, Reaches (AsyncCall.step q st.copy) c d ∧ d.Inv q st.copy ∧
        d.future.outcome = some v := by
      have hsettling := hcall.settling
      generalize hphase : c.phase = phase, houtcome : c.future.outcome = outcome
        at hsettling
      rw [hphase] at hi hsubmitting
      cases hsettling with
      | rejected => cases hi
      | submitting j =>
          cases hi
          exact absurd rfl hsubmitting
      | combining hfound' hdone hagrees =>
          cases hi
          rw [hfound] at hfound'
          cases hfound'
          exact hcall.combining_completes hinv.copy.reachable hphase
            ((hagrees st.copy (.refl _)).trans hv)
      | combined hfound' hdone hv' =>
          cases hi
          rw [hfound] at hfound'
          cases hfound'
          rw [hv] at hv'
          cases hv'
          exact ⟨c, .refl c, hcall, houtcome⟩
    obtain ⟨d, hd, hdinv, hdv⟩ := hfuture
    obtain ⟨c', hc', hresult⟩ := hdinv.finish_completes hdv
    have hk : k < st.asyncCalls.length := (List.getElem?_eq_some_iff.mp hc).1
    exact ⟨_, c', AsyncStore.reaches_call s hc (hd.trans hc'), rfl,
      List.getElem?_set_self hk, hresult⟩

/--
While a physical COPY runs, each request in its batch belongs to a call, and
every call that it belongs to has an open span and an unresolved future: the physical
work lies within the logical operations that caused it.
-/
theorem physical_copy_within_open_calls
    (hstart : CopyBatchState.initializeCopyBatchers s q configured = .ok start)
    (hrun : Reaches (AsyncStore.step s q) (.initial start) st)
    {shardName : String} {b : Batcher α ε} {runner : Runner α ε} {request : Nat}
    (hb : GoMap.get? st.copy.batchers shardName = some b)
    (hrunner : runner ∈ b.runners) (hcopying : runner.outcome = none)
    (hrequest : request ∈ runner.batch.requests) :
    (∃ call ∈ st.copy.calls, (shardName, Reply.pending request) ∈ call.asyncResults) ∧
    ∀ (i : Nat) (call : CopyCall Item ρ α ε), st.copy.calls[i]? = some call →
      (shardName, Reply.pending request) ∈ call.asyncResults →
        ∃ (k : Nat) (c : AsyncCall ε), st.asyncCalls[k]? = some c ∧ c.phase.call? = some i ∧
          c.spanEnds = [] ∧ c.result.outcome = none := by
  obtain ⟨hinv, hcopy⟩ := (AsyncStore.initial_inv hstart).reaches hrun
  have hreach := hinv.copy.reachable shardName b hb
  constructor
  · refine CopyBatchState.Inv.owned hstart hcopy shardName b hb request ?_
    rw [hreach.inv.ledger.length]
    exact hreach.inv.order.runner_bounded _ hrunner _ hrequest
  · intro i call hcall hfragment
    obtain ⟨k, c, hc, hi⟩ :=
      hinv.matched.accepted i (List.getElem?_eq_some_iff.mp hcall).1
    have hinvc := hinv.calls c (List.mem_of_getElem? hc)
    have hpending : c.future.outcome = none := by
      have hsettling := hinvc.settling
      generalize c.phase = phase, c.future.outcome = outcome at hsettling hi
      cases hsettling with
      | rejected => cases hi
      | submitting => rfl
      | combining => rfl
      | combined hfound hdone hv =>
          cases hi
          rw [hcall] at hfound
          cases hfound
          have hsome : st.copy.combined q call ≠ none := by simp [hv]
          refine absurd ?_ (CopyBatchState.awaitResult_of_awaitResults hsome _ hfragment)
          simp only [CopyBatchState.awaitResult, hb, Option.bind_some]
          exact hreach.outcome_of_copying hrunner hcopying hrequest
    have hfinishing := hinvc.finishing
    rw [hpending] at hfinishing
    have hwaiting : c.spanEnds = [] ∧ c.result.outcome = none := by
      generalize c.finish = finish, c.spanEnds = spanEnds, c.result.outcome = result
        at hfinishing
      cases hfinishing with
      | awaiting => exact ⟨rfl, rfl⟩
    exact ⟨k, c, hc, hi, hwaiting⟩

end Calls

/-! ## The two sites -/

def asyncTrace : List (StoreAction Nat Nat Unit) :=
  [.copyAsync [0, 1] none,
    .locked .submit, .locked (.batcher "east" .place), .locked (.batcher "east" .unlock),
    .locked .submit, .locked (.batcher "west" .place), .locked (.batcher "west" .unlock),
    .copyUnlock 0]

/-- Both physical COPYs have returned. -/
def settledTrace : List (StoreAction Nat Nat Unit) :=
  asyncTrace ++ ["east", "west"].flatMap fun site =>
    [.locked (.batcher site (.copyReturns 0 1 none)), .locked (.batcher site (.finishPart 0)),
      .locked (.batcher site (.resolve 0)), .locked (.batcher site (.complete 0))]

def asyncSites (trace : List (StoreAction Nat Nat Unit)) : AsyncStore Nat Site Nat Unit :=
  (runFrom (AsyncStore.step siteStore siteCopy) (.initial sitesStart) trace).getD
    (.initial sitesStart)

theorem async_call_settles_after_its_span_two_sites :
    ∃ st c, Reaches (AsyncStore.step siteStore siteCopy) (asyncSites settledTrace) st ∧
      st.copy = (asyncSites settledTrace).copy ∧ st.asyncCalls[0]? = some c ∧
      c.result.outcome = some (2, none) := by
  have hrun : Reaches (AsyncStore.step siteStore siteCopy) (.initial sitesStart)
      (asyncSites settledTrace) := ⟨settledTrace, rfl⟩
  have hcall : (asyncSites settledTrace).asyncCalls[0]? =
      some ⟨.combining 0 [("east", .pending 0), ("west", .pending 0)] 0 [], Future.new,
        .awaiting, [], Future.new⟩ := rfl
  exact (async_call_settles_after_its_span sitesStart_initial hrun hcall).2.2.2 0
    _ (2, none) rfl (by simp [show (asyncSites settledTrace).copy.mu = none from rfl]) rfl rfl

theorem physical_copy_within_open_calls_two_sites :
    ∃ (k : Nat) (c : AsyncCall Unit), (asyncSites asyncTrace).asyncCalls[k]? = some c ∧
      c.phase.call? = some 0 ∧ c.spanEnds = [] ∧ c.result.outcome = none := by
  have hrun : Reaches (AsyncStore.step siteStore siteCopy) (.initial sitesStart)
      (asyncSites asyncTrace) := ⟨asyncTrace, rfl⟩
  have hbatcher : (GoMap.get? (asyncSites asyncTrace).copy.batchers "east").isSome = true := rfl
  obtain ⟨b, hb⟩ := Option.isSome_iff_exists.mp hbatcher
  have hrunner : (b.runners.head?.map fun runner =>
      (runner.outcome, runner.batch.requests)) = some (none, [0]) := by
    cases hb
    rfl
  obtain ⟨runner, hhead, hcopying⟩ := Option.map_eq_some_iff.mp hrunner
  obtain ⟨hnone, hrequests⟩ := Prod.mk.inj hcopying
  have hzero : 0 ∈ runner.batch.requests := by simp [hrequests]
  exact (physical_copy_within_open_calls sitesStart_initial hrun hb
    (List.mem_of_head? hhead) hnone hzero).2 0 _ rfl List.mem_cons_self

end PgMesh.Store
