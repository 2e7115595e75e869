import PgMesh.Store.AsyncCopy

/-!
# A flush across all replica sets

Both generated methods hold the mutex while they go over the batchers, so a
call of `CopyXAsync` that was accepted before a call of `FlushX` has submitted
all its fragments before any of the flushes, and one accepted after it submits
all of them after all of the flushes.
-/

namespace PgMesh.Store

open PgMesh.Foundation
open PgMesh.Topology
open PgMesh.Copy
open PgMesh.Copy.Batcher (Reply)

variable {ρ κ A Item α ε : Type} [Named ρ] [Inhabited κ]

/-! ## Batchers that have moved on -/

/-- Every batcher is in a state that it could reach by itself. -/
def Advances (batchers batchers' : GoMap String (Batcher α ε)) : Prop :=
  ∀ shardName b, GoMap.get? batchers shardName = some b →
    ∃ b', GoMap.get? batchers' shardName = some b' ∧ Reaches Batcher.step b b'

theorem Advances.refl (batchers : GoMap String (Batcher α ε)) :
    Advances batchers batchers :=
  fun _ b hb => ⟨b, hb, .refl b⟩

theorem Advances.set {batchers : GoMap String (Batcher α ε)}
    {shardName : String} {b b' : Batcher α ε}
    (hb : GoMap.get? batchers shardName = some b)
    (hstep : Reaches Batcher.step b b') :
    Advances batchers (GoMap.set batchers shardName b') := by
  intro other c hc
  rw [GoMap.get?_set]
  by_cases hother : shardName = other
  · subst hother
    rw [hb] at hc
    cases hc
    exact ⟨b', if_pos rfl, hstep⟩
  · exact ⟨c, by rw [if_neg hother, hc], .refl c⟩

/-- The batcher of a group has accepted its rows as this request. -/
def Handed (batchers : GoMap String (Batcher α ε)) (enabled : Bool)
    (group : CopyShardGroup ρ α) (result : String × Reply ε) : Prop :=
  result.1 = group.shard.replicaSetName ∧
    ∃ b request, GoMap.get? batchers result.1 = some b ∧
      result.2 = .pending request ∧
      b.accepted[request]? = some ⟨group.args, enabled⟩

/-- The flush with this index in its batcher was made at the barrier. -/
def FlushedAt (batchers : GoMap String (Batcher α ε))
    (entry : String × Nat) (barrier : Nat) : Prop :=
  ∃ b f, GoMap.get? batchers entry.1 = some b ∧
    b.flushes[entry.2]? = some f ∧ f.barrier = barrier

section Advance

variable {batchers batchers' : GoMap String (Batcher α ε)}
  (hreach : ∀ shardName b, GoMap.get? batchers shardName = some b → Reachable b)
  (hadvance : Advances batchers batchers')

include hreach hadvance

theorem Handed.advance {enabled : Bool} {group : CopyShardGroup ρ α}
    {result : String × Reply ε} (h : Handed batchers enabled group result) :
    Handed batchers' enabled group result := by
  obtain ⟨hname, b, request, hb, hreply, haccepted⟩ := h
  obtain ⟨b', hb', hrun⟩ := hadvance _ b hb
  refine ⟨hname, b', request, hb', hreply, ?_⟩
  obtain ⟨more, hmore⟩ := (hreach _ b hb).accepted_kept hrun
  rw [← hmore, List.getElem?_append_left
    (List.getElem?_eq_some_iff.mp haccepted).1, haccepted]

theorem FlushedAt.advance {entry : String × Nat} {barrier : Nat}
    (h : FlushedAt batchers entry barrier) : FlushedAt batchers' entry barrier := by
  obtain ⟨b, f, hb, hf, hbarrier⟩ := h
  obtain ⟨b', hb', hrun⟩ := hadvance _ b hb
  obtain ⟨f', hf', -, hbarrier'⟩ := (hreach _ b hb).flush_kept hrun hf
  exact ⟨b', f', hb', hf', hbarrier'.trans hbarrier⟩

end Advance

theorem FlushedAt.unique {batchers : GoMap String (Batcher α ε)}
    {entry : String × Nat} {first second : Nat}
    (h : FlushedAt batchers entry first) (h' : FlushedAt batchers entry second) :
    first = second := by
  obtain ⟨b, f, hb, hf, rfl⟩ := h
  obtain ⟨b', f', hb', hf', rfl⟩ := h'
  rw [hb] at hb'
  cases hb'
  rw [hf] at hf'
  cases hf'
  rfl

namespace CopyBatchState

/-- Fragments and flushes meet on a batcher in the order of their calls. -/
def Ordered (st : CopyBatchState Item ρ α ε) : Prop :=
  ∀ i call, st.calls[i]? = some call → ∀ f ∈ st.flushes,
    ∀ shardName request k barrier,
      (shardName, Reply.pending request) ∈ call.asyncResults →
      (shardName, k) ∈ f.flushes →
      FlushedAt st.batchers (shardName, k) barrier →
        (i < f.callsBefore → request < barrier) ∧
        (f.callsBefore ≤ i → barrier ≤ request)

structure Inv (s : MeshStore ρ κ A) (q : CopyQuery Item A α)
    (st : CopyBatchState Item ρ α ε) : Prop where
  reachable : ∀ shardName b, GoMap.get? st.batchers shardName = some b →
    Reachable b
  domain : ∀ r ∈ s.mesh.replicaSets, GoMap.get? st.batchers (name r) ≠ none
  grouped : ∀ call ∈ st.calls,
    asyncCopyGroups (ε := ε) s q call.arg = .ok call.groups
  handed : ∀ call ∈ st.calls, ∃ submitted,
    call.groups = submitted ++ call.remaining ∧
      List.Forall₂ (Handed st.batchers st.enabled) submitted call.asyncResults
  flushed : ∀ f ∈ st.flushes,
    f.flushes.map Prod.fst ++ f.remaining = s.mesh.replicaSets.map name ∧
      ∀ entry ∈ f.flushes, ∃ barrier, FlushedAt st.batchers entry barrier
  callsBefore : ∀ f ∈ st.flushes, f.callsBefore ≤ st.calls.length
  copying : ∀ i, st.mu = some (.copying i) →
    i + 1 = st.calls.length ∧ ∀ f ∈ st.flushes, f.callsBefore ≤ i
  flushing : ∀ j, st.mu = some (.flushing j) →
    ∀ f, st.flushes[j]? = some f → f.callsBefore = st.calls.length
  callDone : ∀ i call, st.calls[i]? = some call →
    st.mu ≠ some (.copying i) → call.remaining = []
  flushDone : ∀ j f, st.flushes[j]? = some f →
    st.mu ≠ some (.flushing j) → f.remaining = []
  ordered : st.Ordered

namespace Inv

variable {s : MeshStore ρ κ A} {q : CopyQuery Item A α}
  {st : CopyBatchState Item ρ α ε}

/-- Whatever the batchers do by themselves keeps the invariant. -/
theorem advance (h : Inv s q st) {batchers : GoMap String (Batcher α ε)}
    (hreach : ∀ shardName b, GoMap.get? batchers shardName = some b → Reachable b)
    (hadvance : Advances st.batchers batchers) :
    Inv s q { st with batchers := batchers } where
  reachable := hreach
  domain := by
    intro r hr
    obtain ⟨b, hb⟩ := Option.ne_none_iff_exists'.mp (h.domain r hr)
    obtain ⟨b', hb', -⟩ := hadvance _ b hb
    change GoMap.get? batchers (name r) ≠ none
    simp [hb']
  grouped := h.grouped
  handed := by
    intro call hcall
    obtain ⟨submitted, hsplit, hall⟩ := h.handed call hcall
    exact ⟨submitted, hsplit,
      hall.imp fun _ _ hone => hone.advance h.reachable hadvance⟩
  flushed := by
    intro f hf
    obtain ⟨hnames, hall⟩ := h.flushed f hf
    refine ⟨hnames, ?_⟩
    intro entry hentry
    obtain ⟨barrier, hbarrier⟩ := hall entry hentry
    exact ⟨barrier, hbarrier.advance h.reachable hadvance⟩
  callsBefore := h.callsBefore
  copying := h.copying
  flushing := h.flushing
  callDone := h.callDone
  flushDone := h.flushDone
  ordered := by
    intro i call hcall f hf shardName request k barrier hrequest hk hbarrier
    obtain ⟨before, hbefore⟩ := (h.flushed f hf).2 _ hk
    obtain rfl := (hbefore.advance h.reachable hadvance).unique hbarrier
    exact h.ordered i call hcall f hf shardName request k before hrequest hk
      hbefore

/-- `CopyXAsync` has taken the mutex and passed its checks. -/
theorem copyAccepted (h : Inv s q st) (hmu : st.mu = none) {arg : List Item}
    {groups : List (CopyShardGroup ρ α)}
    (hgroups : asyncCopyGroups (ε := ε) s q arg = .ok groups) :
    Inv s q { st with
      mu := some (.copying st.calls.length)
      calls := st.calls ++ [⟨arg, groups, groups, []⟩] } where
  reachable := h.reachable
  domain := h.domain
  grouped := by
    intro call hcall
    rcases List.mem_append.mp hcall with hcall | hcall
    · exact h.grouped call hcall
    · rw [List.mem_singleton.mp hcall]
      exact hgroups
  handed := by
    intro call hcall
    rcases List.mem_append.mp hcall with hcall | hcall
    · exact h.handed call hcall
    · rw [List.mem_singleton.mp hcall]
      exact ⟨[], rfl, .nil⟩
  flushed := h.flushed
  callsBefore := by
    intro f hf
    have hle := h.callsBefore f hf
    rw [List.length_append]
    omega
  copying := by
    intro i hi
    cases hi
    exact ⟨by simp, h.callsBefore⟩
  flushing := nofun
  callDone := by
    intro i call hcall hne
    rcases getElem?_append_singleton hcall with hcall | ⟨rfl, rfl⟩
    · exact h.callDone i call hcall (by simp [hmu])
    · exact absurd rfl hne
  flushDone := by
    intro j f hf _
    exact h.flushDone j f hf (by simp [hmu])
  ordered := by
    intro i call hcall f hf shardName request k barrier hrequest
    rcases getElem?_append_singleton hcall with hcall | ⟨rfl, rfl⟩
    · exact h.ordered i call hcall f hf shardName request k barrier hrequest
    · cases hrequest

/-- A batcher has accepted the next group of the call that holds the mutex. -/
theorem groupSubmitted (h : Inv s q st) {i : Nat}
    (hmu : st.mu = some (.copying i)) {arg : List Item}
    {groups remaining : List (CopyShardGroup ρ α)} {group : CopyShardGroup ρ α}
    {asyncResults : List (String × Reply ε)} {request : Nat}
    (hcall : st.calls[i]? = some ⟨arg, groups, group :: remaining, asyncResults⟩)
    (hhanded : Handed st.batchers st.enabled group
      (group.shard.replicaSetName, .pending request))
    (hlate : ∀ k barrier,
      FlushedAt st.batchers (group.shard.replicaSetName, k) barrier →
        barrier ≤ request) :
    Inv s q { st with
      calls := st.calls.set i ⟨arg, groups, remaining, asyncResults ++
        [(group.shard.replicaSetName, .pending request)]⟩ } where
  reachable := h.reachable
  domain := h.domain
  grouped := by
    intro call hmem
    rcases List.mem_or_eq_of_mem_set hmem with hmem | rfl
    · exact h.grouped call hmem
    · have hold := h.grouped _ (List.mem_of_getElem? hcall)
      exact hold
  handed := by
    intro call hmem
    rcases List.mem_or_eq_of_mem_set hmem with hmem | rfl
    · exact h.handed call hmem
    · obtain ⟨submitted, hsplit, hall⟩ :=
        h.handed _ (List.mem_of_getElem? hcall)
      refine ⟨submitted ++ [group], ?_, ?_⟩
      · simpa using hsplit
      · exact List.rel_append hall (.cons hhanded .nil)
  flushed := h.flushed
  callsBefore := by simpa using h.callsBefore
  copying := by simpa using h.copying
  flushing := by simpa using h.flushing
  callDone := by
    intro i' call' hcall' hne
    rcases getElem?_set_cases hcall' with ⟨rfl, rfl⟩ | ⟨-, hcall'⟩
    · exact absurd hmu hne
    · exact h.callDone i' call' hcall' hne
  flushDone := h.flushDone
  ordered := by
    intro i' call' hcall' f hf shardName request' k barrier hrequest hk hbarrier
    rcases getElem?_set_cases hcall' with ⟨rfl, rfl⟩ | ⟨-, hcall'⟩
    · rcases List.mem_append.mp hrequest with hrequest | hrequest
      · exact h.ordered i' _ hcall f hf shardName request' k barrier hrequest hk
          hbarrier
      · -- The call holds the mutex, so every flush so far was made before it.
        cases List.mem_singleton.mp hrequest
        have hbefore := (h.copying i' hmu).2 f hf
        exact ⟨by omega, fun _ => hlate k barrier hbarrier⟩
    · exact h.ordered i' call' hcall' f hf shardName request' k barrier hrequest
        hk hbarrier

/-- `FlushX` has taken the mutex. -/
theorem flushStarted (h : Inv s q st) (hmu : st.mu = none) :
    Inv s q { st with
      mu := some (.flushing st.flushes.length)
      flushes := st.flushes ++
        [⟨st.calls.length, s.mesh.replicaSets.map name, []⟩] } where
  reachable := h.reachable
  domain := h.domain
  grouped := h.grouped
  handed := h.handed
  flushed := by
    intro f hf
    rcases List.mem_append.mp hf with hf | hf
    · exact h.flushed f hf
    · rw [List.mem_singleton.mp hf]
      exact ⟨rfl, nofun⟩
  callsBefore := by
    intro f hf
    rcases List.mem_append.mp hf with hf | hf
    · exact h.callsBefore f hf
    · rw [List.mem_singleton.mp hf]
  copying := nofun
  flushing := by
    intro j hj f hf
    cases hj
    rcases getElem?_append_singleton hf with hf | ⟨-, rfl⟩
    · have hlt := (List.getElem?_eq_some_iff.mp hf).1
      omega
    · rfl
  callDone := by
    intro i call hcall _
    exact h.callDone i call hcall (by simp [hmu])
  flushDone := by
    intro j f hf hne
    rcases getElem?_append_singleton hf with hf | ⟨rfl, rfl⟩
    · exact h.flushDone j f hf (by simp [hmu])
    · exact absurd rfl hne
  ordered := by
    intro i call hcall f hf shardName request k barrier hrequest hk
    rcases List.mem_append.mp hf with hf | hf
    · exact h.ordered i call hcall f hf shardName request k barrier hrequest hk
    · rw [List.mem_singleton.mp hf] at hk
      cases hk

/-- The flush that holds the mutex has called `FlushAsync` on its next batcher. -/
theorem batcherFlushed (h : Inv s q st) {j : Nat}
    (hmu : st.mu = some (.flushing j)) {callsBefore : Nat}
    {remaining : List String} {shardName : String}
    {flushes : List (String × Nat)} {k barrier : Nat}
    (hflush : st.flushes[j]? =
      some ⟨callsBefore, shardName :: remaining, flushes⟩)
    (hbarrier : FlushedAt st.batchers (shardName, k) barrier)
    (hearly : ∀ b request submission,
      GoMap.get? st.batchers shardName = some b →
        b.accepted[request]? = some submission → request < barrier) :
    Inv s q { st with
      flushes := st.flushes.set j
        ⟨callsBefore, remaining, flushes ++ [(shardName, k)]⟩ } where
  reachable := h.reachable
  domain := h.domain
  grouped := h.grouped
  handed := h.handed
  flushed := by
    intro f hf
    rcases List.mem_or_eq_of_mem_set hf with hf | rfl
    · exact h.flushed f hf
    · obtain ⟨hnames, hall⟩ := h.flushed _ (List.mem_of_getElem? hflush)
      refine ⟨by simpa using hnames, ?_⟩
      intro entry hentry
      rcases List.mem_append.mp hentry with hentry | hentry
      · exact hall entry hentry
      · rw [List.mem_singleton.mp hentry]
        exact ⟨barrier, hbarrier⟩
  callsBefore := by
    intro f hf
    rcases List.mem_or_eq_of_mem_set hf with hf | rfl
    · exact h.callsBefore f hf
    · have hold := h.callsBefore _ (List.mem_of_getElem? hflush)
      exact hold
  copying := by
    intro i hi
    rw [hmu] at hi
    cases hi
  flushing := by
    intro j' hj' f hf
    rcases getElem?_set_cases hf with ⟨rfl, rfl⟩ | ⟨-, hf⟩
    · have hold := h.flushing j' hj' _ hflush
      exact hold
    · exact h.flushing j' hj' f hf
  callDone := h.callDone
  flushDone := by
    intro j' f hf hne
    rcases getElem?_set_cases hf with ⟨rfl, rfl⟩ | ⟨-, hf⟩
    · exact absurd hmu hne
    · exact h.flushDone j' f hf hne
  ordered := by
    intro i call hcall f hf shardName' request k' barrier' hrequest hk hbarrier'
    rcases List.mem_or_eq_of_mem_set hf with hf | rfl
    · exact h.ordered i call hcall f hf shardName' request k' barrier' hrequest hk
        hbarrier'
    · rcases List.mem_append.mp hk with hk | hk
      · exact h.ordered i call hcall _ (List.mem_of_getElem? hflush) shardName'
          request k' barrier' hrequest hk hbarrier'
      · -- The flush holds the mutex, so every call so far was accepted before it.
        cases List.mem_singleton.mp hk
        obtain rfl := hbarrier.unique hbarrier'
        have hlt : i < st.calls.length := (List.getElem?_eq_some_iff.mp hcall).1
        have hall := h.flushing j hmu _ hflush
        obtain ⟨submitted, -, hhanded⟩ := h.handed call (List.mem_of_getElem? hcall)
        obtain ⟨group, -, -, b, request', hb, hreply, haccepted⟩ :=
          exists_of_mem_right hhanded hrequest
        cases hreply
        refine ⟨fun _ => hearly b request _ hb haccepted, ?_⟩
        intro hle
        simp only at hall hle
        omega

/-- The holder of the mutex has nothing left to do. -/
theorem unlocked (h : Inv s q st)
    (hcalls : ∀ i call, st.mu = some (.copying i) → st.calls[i]? = some call →
      call.remaining = [])
    (hflushes : ∀ j f, st.mu = some (.flushing j) → st.flushes[j]? = some f →
      f.remaining = []) :
    Inv s q { st with mu := none } where
  reachable := h.reachable
  domain := h.domain
  grouped := h.grouped
  handed := h.handed
  flushed := h.flushed
  callsBefore := h.callsBefore
  copying := nofun
  flushing := nofun
  callDone := by
    intro i call hcall _
    by_cases hmu : st.mu = some (.copying i)
    · exact hcalls i call hmu hcall
    · exact h.callDone i call hcall hmu
  flushDone := by
    intro j f hf _
    by_cases hmu : st.mu = some (.flushing j)
    · exact hflushes j f hmu hf
    · exact h.flushDone j f hf hmu
  ordered := h.ordered

end Inv

end CopyBatchState

/-- A batcher that is not locked accepts the rows of a group. -/
theorem submit_group {b b' : Batcher α ε} {rows : List α} {coalesce : Bool}
    {reply : Reply ε} (hrows : rows ≠ [])
    (h : b.submit rows coalesce none none = some (b', reply)) :
    b' = b.accept rows coalesce ∧ reply = .pending b.requests.length := by
  simp only [Batcher.submit, List.length_eq_zero_iff, if_neg hrows] at h
  split at h
  · contradiction
  · cases h
  · contradiction
  · cases h
    exact ⟨rfl, rfl⟩

theorem reachable_set {batchers : GoMap String (Batcher α ε)}
    (hreach : ∀ shardName b, GoMap.get? batchers shardName = some b → Reachable b)
    {shardName : String} {b' : Batcher α ε} (hb' : Reachable b') :
    ∀ other b, GoMap.get? (GoMap.set batchers shardName b') other = some b →
      Reachable b := by
  intro other b hb
  rw [GoMap.get?_set] at hb
  split at hb
  · cases hb
    exact hb'
  · exact hreach other b hb

namespace CopyBatchState

variable {s : MeshStore ρ κ A} {q : CopyQuery Item A α}
  {st st' : CopyBatchState Item ρ α ε}

/-- One batcher of the map takes a step. -/
theorem Inv.setBatcher (h : Inv s q st) {shardName : String}
    {b b' : Batcher α ε} {action : Action α ε}
    (hb : GoMap.get? st.batchers shardName = some b)
    (hstep : b.step action = some b') :
    Inv s q { st with batchers := GoMap.set st.batchers shardName b' } := by
  have hrun : Reaches Batcher.step b b' := .single hstep
  exact h.advance
    (reachable_set h.reachable ((h.reachable shardName b hb).trans hrun))
    (Advances.set hb hrun)

theorem Inv.copyAsync (h : Inv s q st) {arg : List Item}
    {ctxErr : Option (GoError ε)} {reply : AsyncReply ε}
    (hstep : st.copyAsync s q arg ctxErr = some (st', reply)) : Inv s q st' := by
  unfold CopyBatchState.copyAsync at hstep
  split at hstep
  · cases hstep
    exact h
  · rename_i groups hgroups
    split at hstep
    · cases hstep
      exact h
    · split at hstep
      · cases hstep
      · cases hstep
        exact h
      · rename_i hmu
        split at hstep
        · cases hstep
          exact h
        · cases hstep
          exact h.copyAccepted hmu hgroups

theorem Inv.submit (h : Inv s q st) (hstep : st.submit = some st') :
    Inv s q st' := by
  unfold CopyBatchState.submit at hstep
  split at hstep
  · rename_i i hmu
    split at hstep
    · rename_i arg groups group remaining asyncResults hcall
      split at hstep
      · split at hstep
        · cases hstep
        · rename_i b hb
          split at hstep
          · cases hstep
          · rename_i b' reply hsubmit
            cases hstep
            have hmem := List.mem_of_getElem? hcall
            obtain ⟨submitted, hsplit, -⟩ := h.handed _ hmem
            obtain ⟨groupsByName, hgrouped, hgroups, -⟩ :=
              asyncCopyGroups_ok (h.grouped _ hmem)
            have hgroup : group ∈ populated s.mesh groupsByName := by
              rw [← hgroups, hsplit]
              simp
            obtain ⟨rfl, rfl⟩ :=
              submit_group (mem_populated hgrouped hgroup).2 hsubmit
            have hbatcher : b.step (.submit group.args st.enabled none none) =
                some (b.accept group.args st.enabled) := by
              simp [Batcher.step, hsubmit]
            have hb' := GoMap.get?_set st.batchers group.shard.replicaSetName
              group.shard.replicaSetName (b.accept group.args st.enabled)
            rw [if_pos rfl] at hb'
            have hreach := h.reachable _ b hb
            refine (h.setBatcher hb hbatcher).groupSubmitted hmu hcall ?_ ?_
            · refine ⟨rfl, _, b.requests.length, hb', rfl, ?_⟩
              rw [← hreach.inv.ledger.length]
              simp [Batcher.accept]
            · rintro k barrier ⟨c, f, hc, hf, rfl⟩
              rw [hb'] at hc
              cases hc
              exact (hreach.flushInv f (List.mem_of_getElem? hf)).bound
      · cases hstep
    · cases hstep
  · cases hstep

theorem Inv.flushAsync (h : Inv s q st) {order : List Nat}
    (hstep : st.flushAsync order = some st') : Inv s q st' := by
  unfold CopyBatchState.flushAsync at hstep
  split at hstep
  · rename_i j hmu
    split at hstep
    · rename_i callsBefore shardName remaining flushes hflush
      have hnames := (h.flushed _ (List.mem_of_getElem? hflush)).1
      have hname : shardName ∈ s.mesh.replicaSets.map name := by
        rw [← hnames]
        simp
      obtain ⟨r, hr, rfl⟩ := List.mem_map.mp hname
      split at hstep
      · rename_i hnone
        exact absurd hnone (h.domain r hr)
      · rename_i b hb
        split at hstep
        · cases hstep
        · rename_i b' hb'
          cases hstep
          have hbatcher : b.step (.flushAsync order) = some b' := hb'
          have hget := GoMap.get?_set st.batchers (name r) (name r) b'
          rw [if_pos rfl] at hget
          have hreach := h.reachable _ b hb
          obtain ⟨-, -, -, -, hrequests, hflushes⟩ :=
            Batcher.flushAsync_spec hreach.activeInv hb'
          have hk : b'.flushes[b.flushes.length]? =
              some ⟨b.requests.length, order, order, [], Future.new⟩ := by
            rw [hflushes]
            simp
          have hat : FlushedAt (GoMap.set st.batchers (name r) b')
              (name r, b.flushes.length) b.requests.length :=
            ⟨b', _, hget, hk, rfl⟩
          refine (h.setBatcher hb hbatcher).batcherFlushed hmu hflush hat ?_
          intro c request submission hc haccepted
          rw [hget] at hc
          cases hc
          have hlength := (hreach.trans (.single hbatcher)).inv.ledger.length
          have hlt := (List.getElem?_eq_some_iff.mp haccepted).1
          rw [hlength, hrequests] at hlt
          exact hlt
    · cases hstep
  · cases hstep

theorem Inv.copyUnlock (h : Inv s q st) (hstep : st.copyUnlock = some st') :
    Inv s q st' := by
  unfold CopyBatchState.copyUnlock at hstep
  split at hstep
  · rename_i i hmu
    split at hstep
    · rename_i hcall
      split at hstep
      · cases hstep
        apply h.unlocked
        · intro i' call hmu' hcall'
          rw [hmu] at hmu'
          cases hmu'
          rw [hcall] at hcall'
          cases hcall'
          rfl
        · intro j f hmu'
          rw [hmu] at hmu'
          cases hmu'
      · cases hstep
    · cases hstep
  · cases hstep

theorem Inv.flushUnlock (h : Inv s q st) (hstep : st.flushUnlock = some st') :
    Inv s q st' := by
  unfold CopyBatchState.flushUnlock at hstep
  split at hstep
  · rename_i j hmu
    split at hstep
    · rename_i hflush
      cases hstep
      apply h.unlocked
      · intro i call hmu'
        rw [hmu] at hmu'
        cases hmu'
      · intro j' f hmu' hf
        rw [hmu] at hmu'
        cases hmu'
        rw [hflush] at hf
        cases hf
        rfl
    · cases hstep
  · cases hstep

theorem Inv.batcherStep (h : Inv s q st) {shardName : String}
    {action : Action α ε} (hstep : st.batcherStep shardName action = some st') :
    Inv s q st' := by
  unfold CopyBatchState.batcherStep at hstep
  split at hstep
  · cases hstep
  · split at hstep
    · cases hstep
    · rename_i b hb
      split at hstep
      · cases hstep
      · rename_i b' hb'
        cases hstep
        exact h.setBatcher hb hb'

theorem Inv.step (h : Inv s q st) {action : AsyncAction Item α ε}
    (hstep : st.step s q action = some st') : Inv s q st' := by
  cases action with
  | copyAsync arg ctxErr =>
      obtain ⟨⟨next, reply⟩, hcopy, rfl⟩ := Option.map_eq_some_iff.mp hstep
      exact h.copyAsync hcopy
  | submit => exact h.submit hstep
  | copyUnlock => exact h.copyUnlock hstep
  | flush =>
      change st.flush s = some st' at hstep
      unfold CopyBatchState.flush at hstep
      split at hstep
      · cases hstep
      · rename_i hmu
        cases hstep
        exact h.flushStarted hmu
  | flushAsync order => exact h.flushAsync hstep
  | flushUnlock => exact h.flushUnlock hstep
  | batcher shardName action => exact h.batcherStep hstep

/-- Every replica set of the list gets a new batcher. -/
theorem openBatchers_spec {config : CopyBatchConfig} (replicaSets : List ρ)
    {batchers batchers' : GoMap String (Batcher α ε)}
    (hreach : ∀ shardName b, GoMap.get? batchers shardName = some b → Reachable b)
    (h : openBatchers q config batchers replicaSets = .ok batchers') :
    (∀ shardName b, GoMap.get? batchers' shardName = some b → Reachable b) ∧
    (∀ shardName, GoMap.get? batchers shardName ≠ none →
      GoMap.get? batchers' shardName ≠ none) ∧
    ∀ r ∈ replicaSets, GoMap.get? batchers' (name r) ≠ none := by
  induction replicaSets generalizing batchers with
  | nil =>
      cases h
      exact ⟨hreach, fun _ hget => hget, nofun⟩
  | cons r replicaSets ih =>
      simp only [openBatchers] at h
      split at h
      · cases h
      · rename_i b hb
        have hnew : Reachable b := ⟨config, b, hb, .refl b⟩
        obtain ⟨hreach', hkept, hrest⟩ := ih (reachable_set hreach hnew) h
        refine ⟨hreach', ?_, ?_⟩
        · intro shardName hget
          apply hkept
          rw [GoMap.get?_set]
          split
          · exact Option.some_ne_none b
          · exact hget
        · intro r' hr'
          rcases List.mem_cons.mp hr' with rfl | hr'
          · apply hkept
            rw [GoMap.get?_set, if_pos rfl]
            exact Option.some_ne_none b
          · exact hrest r' hr'

theorem initialize_inv {configured : Option CopyBatchConfig}
    (h : initializeCopyBatchers s q configured = .ok st) : Inv s q st := by
  unfold initializeCopyBatchers at h
  split at h
  · cases h
  · rename_i batchers hopen
    cases h
    have hempty : ∀ shardName b,
        GoMap.get? ([] : GoMap String (Batcher α ε)) shardName = some b →
          Reachable b := by
      intro shardName b hb
      cases hb
    obtain ⟨hreach, -, hdomain⟩ :=
      openBatchers_spec s.mesh.replicaSets hempty hopen
    exact ⟨hreach, hdomain, nofun, nofun, nofun, nofun, nofun, nofun, nofun, nofun,
      nofun⟩

/-! ## The barrier of a flush -/

/-- The request is the one that a call of `CopyXAsync` made on this batcher. -/
def Fragment (st : CopyBatchState Item ρ α ε) (call : CopyCall Item ρ α ε)
    (shardName : String) (b : Batcher α ε) (request : Nat) : Prop :=
  (shardName, Reply.pending request) ∈ call.asyncResults ∧
    GoMap.get? st.batchers shardName = some b

/-- The flush is the one that a call of `FlushX` made on this batcher. -/
def ShardFlush (st : CopyBatchState Item ρ α ε) (f : FlushCall)
    (shardName : String) (b : Batcher α ε) (flush : Flush ε) : Prop :=
  GoMap.get? st.batchers shardName = some b ∧
    ∃ k, (shardName, k) ∈ f.flushes ∧ b.flushes[k]? = some flush

theorem Inv.before_or_after (h : Inv s q st) {i : Nat}
    {call : CopyCall Item ρ α ε} (hcall : st.calls[i]? = some call)
    {f : FlushCall} (hf : f ∈ st.flushes) :
    (i < f.callsBefore ∧ call.remaining = []) ∨
      (f.callsBefore ≤ i ∧ f.remaining = []) := by
  have hlt := (List.getElem?_eq_some_iff.mp hcall).1
  rcases Nat.lt_or_ge i f.callsBefore with hbefore | hafter
  · left
    refine ⟨hbefore, h.callDone i call hcall ?_⟩
    intro hmu
    have hle := (h.copying i hmu).2 f hf
    omega
  · right
    obtain ⟨j, hj⟩ := List.mem_iff_getElem?.mp hf
    refine ⟨hafter, h.flushDone j f hj ?_⟩
    intro hmu
    have hall := h.flushing j hmu f hj
    omega

theorem Inv.shardFlush_of_done (h : Inv s q st) {f : FlushCall}
    (hf : f ∈ st.flushes) (hdone : f.remaining = []) {shardName : String}
    {b : Batcher α ε} (hname : shardName ∈ s.mesh.replicaSets.map name)
    (hb : GoMap.get? st.batchers shardName = some b) :
    ∃ flush, st.ShardFlush f shardName b flush := by
  obtain ⟨hnames, hall⟩ := h.flushed f hf
  rw [← hnames, hdone, List.append_nil] at hname
  obtain ⟨⟨_, k⟩, hentry, rfl⟩ := List.mem_map.mp hname
  obtain ⟨barrier, b', flush, hb', hflush, -⟩ := hall _ hentry
  rw [hb] at hb'
  cases hb'
  exact ⟨flush, hb, k, hentry, hflush⟩

/-- A flush whose future is resolved has seen every earlier request resolve. -/
theorem outcome_of_flush {b : Batcher α ε} (h : Reachable b) {flush : Flush ε}
    (hflush : flush ∈ b.flushes) (hresolved : flush.result.outcome ≠ none)
    {request : Nat} (hlt : request < flush.barrier) :
    b.outcome request ≠ none := by
  have hwf := h.flushInv flush hflush
  obtain ⟨⟨value, err⟩, hvalue⟩ := Option.ne_none_iff_exists'.mp hresolved
  obtain ⟨finished, hfutures, hsettled, -⟩ := hwf.awaited
  rw [(hwf.returned value err hvalue).1, List.append_nil] at hfutures
  rcases hwf.covers request hlt with hmem | hsome
  · exact hsettled request (hfutures ▸ hmem)
  · exact hsome

theorem Inv.request_lt_barrier (h : Inv s q st) {i : Nat}
    {call : CopyCall Item ρ α ε} (hcall : st.calls[i]? = some call)
    {f : FlushCall} (hf : f ∈ st.flushes) {shardName : String}
    {b : Batcher α ε} {request : Nat} {flush : Flush ε}
    (hfragment : st.Fragment call shardName b request)
    (hflush : st.ShardFlush f shardName b flush) :
    (i < f.callsBefore → request < flush.barrier) ∧
      (f.callsBefore ≤ i → flush.barrier ≤ request) := by
  obtain ⟨hb, k, hk, hflush⟩ := hflush
  exact h.ordered i call hcall f hf shardName request k flush.barrier
    hfragment.1 hk ⟨b, flush, hb, hflush, rfl⟩

theorem Inv.fragment_mem (h : Inv s q st) {call : CopyCall Item ρ α ε}
    (hcall : call ∈ st.calls) {shardName : String} {b : Batcher α ε}
    {request : Nat} (hfragment : st.Fragment call shardName b request) :
    shardName ∈ s.mesh.replicaSets.map name := by
  obtain ⟨submitted, hsplit, hhanded⟩ := h.handed call hcall
  obtain ⟨group, hgroup, hname, -⟩ := exists_of_mem_right hhanded hfragment.1
  obtain ⟨groupsByName, hgrouped, hgroups, -⟩ :=
    asyncCopyGroups_ok (h.grouped call hcall)
  have hmem : group ∈ populated s.mesh groupsByName := by
    rw [← hgroups, hsplit]
    exact List.mem_append_left _ hgroup
  obtain ⟨hset, -⟩ := mem_populated hgrouped hmem
  change shardName = group.shard.replicaSetName at hname
  rw [hname]
  exact List.mem_map_of_mem hset

end CopyBatchState

open CopyBatchState

/--
Either all fragments of a call of `CopyXAsync` are submitted before the
flushes that a call of `FlushX` makes on their batchers, or all of them after.
In the first case the fragments are resolved when the flushes are, in the
second the flushes await none of them.
-/
theorem flush_is_atomic_across_shards {s : MeshStore ρ κ A}
    {q : CopyQuery Item A α} {configured : Option CopyBatchConfig}
    {start st : CopyBatchState Item ρ α ε}
    (hstart : initializeCopyBatchers s q configured = .ok start)
    (hrun : Reaches (CopyBatchState.step s q) start st)
    {i : Nat} {call : CopyCall Item ρ α ε} (hcall : st.calls[i]? = some call)
    {f : FlushCall} (hf : f ∈ st.flushes) :
    (∃ submitted, call.groups = submitted ++ call.remaining ∧
      List.Forall₂ (Handed st.batchers st.enabled) submitted
        call.asyncResults) ∧
    f.flushes.map Prod.fst ++ f.remaining = s.mesh.replicaSets.map name ∧
    ((i < f.callsBefore ∧ call.remaining = [] ∧
        (∀ shardName b request flush, st.Fragment call shardName b request →
          st.ShardFlush f shardName b flush → request < flush.barrier) ∧
        (f.remaining = [] →
          (∀ shardName b flush, st.ShardFlush f shardName b flush →
            flush.result.outcome ≠ none) →
          ∀ shardName b request, st.Fragment call shardName b request →
            b.outcome request ≠ none)) ∨
      (f.callsBefore ≤ i ∧ f.remaining = [] ∧
        ∀ shardName b request flush, st.Fragment call shardName b request →
          st.ShardFlush f shardName b flush →
            flush.barrier ≤ request ∧ request ∉ flush.futures)) := by
  have h : Inv s q st := hrun.invariant (initialize_inv hstart) fun h hstep => h.step hstep
  have hmem := List.mem_of_getElem? hcall
  refine ⟨h.handed call hmem, (h.flushed f hf).1, ?_⟩
  rcases h.before_or_after hcall hf with ⟨hbefore, hdone⟩ | ⟨hafter, hdone⟩
  · left
    refine ⟨hbefore, hdone, ?_, ?_⟩
    · intro shardName b request flush hfragment hflush
      exact (h.request_lt_barrier hcall hf hfragment hflush).1 hbefore
    · intro hflushed hresolved shardName b request hfragment
      obtain ⟨flush, hflush⟩ := h.shardFlush_of_done hf hflushed
        (h.fragment_mem hmem hfragment) hfragment.2
      have hlt := (h.request_lt_barrier hcall hf hfragment hflush).1 hbefore
      have hresult := hresolved shardName b flush hflush
      obtain ⟨hb, k, -, hk⟩ := hflush
      exact outcome_of_flush (h.reachable _ b hb) (List.mem_of_getElem? hk) hresult
        hlt
  · right
    refine ⟨hafter, hdone, ?_⟩
    intro shardName b request flush hfragment hflush
    have hle := (h.request_lt_barrier hcall hf hfragment hflush).2 hafter
    obtain ⟨hb, k, -, hk⟩ := hflush
    have hwf := (h.reachable _ b hb).flushInv flush (List.mem_of_getElem? hk)
    refine ⟨hle, ?_⟩
    intro hawaited
    have hlt := hwf.before request hawaited
    omega

/-! ## A run

A flush between two calls, of which the first has a fragment on each site.
-/

def siteBatcher : Batcher Nat Unit :=
  Batcher.initial (CopyBatchConfig.accepted ⟨0, 0, 0⟩ (ε := Unit) rfl)

def sitesStart : CopyBatchState Nat Site Nat Unit :=
  ⟨false, [("east", siteBatcher), ("west", siteBatcher)], none, [], []⟩

def sitesTrace : List (AsyncAction Nat Nat Unit) :=
  [.copyAsync [0, 1] none,
    .submit, .batcher "east" .place, .batcher "east" .unlock,
    .submit, .batcher "west" .place, .batcher "west" .unlock, .copyUnlock,
    .flush, .flushAsync [0], .flushAsync [0], .flushUnlock] ++
  (["east", "west"].flatMap fun site =>
    [.batcher site (.copyReturns 0 1 none), .batcher site (.finishPart 0),
      .batcher site (.resolve 0), .batcher site (.complete 0),
      .batcher site (.awaitFuture 0), .batcher site (.flushReturns 0)]) ++
  [.copyAsync [0] none, .submit]

def sitesEnd : CopyBatchState Nat Site Nat Unit :=
  (runFrom (CopyBatchState.step siteStore siteCopy) sitesStart
    sitesTrace).getD sitesStart

theorem sitesStart_initial :
    initializeCopyBatchers siteStore siteCopy none = .ok sitesStart :=
  rfl

theorem sitesEnd_reached :
    Reaches (CopyBatchState.step siteStore siteCopy) sitesStart sitesEnd :=
  ⟨sitesTrace, rfl⟩

def sitesCall (i : Nat) : CopyCall Nat Site Nat Unit :=
  (sitesEnd.calls[i]?).getD ⟨[], [], [], []⟩

def sitesFlush : FlushCall := ⟨1, [], [("east", 0), ("west", 0)]⟩

theorem flush_is_atomic_across_shards_two_sites :
    (∀ shardName b request,
      sitesEnd.Fragment (sitesCall 0) shardName b request →
        b.outcome request ≠ none) ∧
    ∀ shardName b request flush,
      sitesEnd.Fragment (sitesCall 1) shardName b request →
        sitesEnd.ShardFlush sitesFlush shardName b flush →
          request ∉ flush.futures := by
  have hmem : sitesFlush ∈ sitesEnd.flushes := List.mem_singleton.mpr rfl
  constructor
  · have hcall : sitesEnd.calls[0]? = some (sitesCall 0) := rfl
    obtain ⟨-, -, ⟨-, -, -, hresolved⟩ | ⟨hafter, -⟩⟩ :=
      flush_is_atomic_across_shards sitesStart_initial sitesEnd_reached hcall hmem
    · apply hresolved rfl
      rintro shardName b flush ⟨hb, k, hk, hflush⟩
      rcases List.mem_cons.mp hk with heq | hk
      · cases heq
        cases hb
        cases hflush
        exact nofun
      · cases List.mem_singleton.mp hk
        cases hb
        cases hflush
        exact nofun
    · cases hafter
  · have hcall : sitesEnd.calls[1]? = some (sitesCall 1) := rfl
    obtain ⟨-, -, ⟨hbefore, -⟩ | ⟨-, -, hlater⟩⟩ :=
      flush_is_atomic_across_shards sitesStart_initial sitesEnd_reached hcall hmem
    · exact absurd hbefore (by decide)
    · intro shardName b request flush hfragment hflush
      exact (hlater shardName b request flush hfragment hflush).2

end PgMesh.Store
