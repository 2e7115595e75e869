import PgMesh.Foundation.Cyclic
import PgMesh.Foundation.Text
import PgMesh.Foundation.Transition
import PgMesh.Topology.ReplicaSet

/-!
# Balancing of reads

Replica sets are made, copied with further write mirrors and read from in any
order.  A copy shares the counter of the set it was made from, so the reads
through a set and through all of its copies go round the same targets.
-/

namespace PgMesh.Topology

open PgMesh.Foundation

variable {R W T : Type}

/-- `selectRead`, where the counter has returned `added`. -/
def ReplicaSet.selectRead (s : ReplicaSet R W) (added : UInt64) : NodeTarget R :=
  s.readTargets.nextItem added

/--
A pointer to a replica set.  `origin` is not in the source: it is the address
of the set made by `NewReplicaSet` of which this one is a copy.
-/
structure Handle (R W : Type) where
  set : ReplicaSet R W
  origin : Nat

/-- The replica sets by address, the counters and the reads, oldest first. -/
structure Balancing (R W : Type) where
  handles : List (Handle R W)
  counters : Nat → UInt64
  selected : List (Nat × NodeTarget R)

namespace Balancing

/-- What some goroutine does next; the counter is advanced atomically. -/
inductive Action (R W : Type) where
  | newReplicaSet (name : String) (primary : Node R W) (replicas : List (Node R W))
  | withWriteMirrors (handle : Nat) (mirrors : List W)
  | selectRead (handle : Nat)

def initial : Balancing R W := ⟨[], fun _ => 0, []⟩

def step (s : Balancing R W) : Action R W → Option (Balancing R W)
  | .newReplicaSet name primary replicas =>
      let address := s.handles.length
      some { s with
        handles := s.handles ++
          [⟨Topology.newReplicaSet address name primary replicas, address⟩]
        counters := Function.update s.counters address 0 }
  | .withWriteMirrors handle mirrors => do
      let source ← s.handles[handle]?
      let address := s.handles.length
      some { s with
        handles := s.handles ++
          [⟨source.set.withWriteMirrors address mirrors, source.origin⟩] }
  | .selectRead handle => do
      let source ← s.handles[handle]?
      let counter := source.set.readTargets.next
      let added := s.counters counter + 1
      some { s with
        counters := Function.update s.counters counter added
        selected := s.selected ++ [(source.origin, source.set.selectRead added)] }

/-- Reachable by any interleaving. -/
def Reachable (s : Balancing R W) : Prop :=
  Reaches step initial s

/-- The reads through the set made at `origin` and through all of its copies. -/
def through (s : Balancing R W) (origin : Nat) : List (NodeTarget R) :=
  (s.selected.filter (·.1 = origin)).map (·.2)

end Balancing

/-! ## The counter -/

theorem RoundRobin.nextItem_ofNat_add_one (r : RoundRobin T) (i : Nat) :
    r.nextItem (UInt64.ofNat i + 1) = turn r.items r.nonempty (i % 2 ^ 64) := by
  have hindex : UInt64.ofNat i + 1 - 1 = UInt64.ofNat i := by
    rw [UInt64.add_sub_cancel]
  simp only [RoundRobin.nextItem, turn, hindex, UInt64.toNat_ofNat']

theorem RoundRobin.getElem?_items (r : RoundRobin T) (counter : UInt64) :
    r.items[counter.toNat % r.items.length]? = some (r.nextItem (counter + 1)) := by
  have hindex : counter + 1 - 1 = counter := UInt64.add_sub_cancel _ _
  simp only [RoundRobin.nextItem, hindex]
  exact List.getElem?_eq_getElem _

/-- What the counter hands out from zero on. -/
def RoundRobin.firstItems (r : RoundRobin T) (count : Nat) : List T :=
  (List.range count).map fun i => r.nextItem (UInt64.ofNat i + 1)

@[simp] theorem RoundRobin.length_firstItems (r : RoundRobin T) (count : Nat) :
    (r.firstItems count).length = count := by
  simp [RoundRobin.firstItems]

theorem RoundRobin.firstItems_succ (r : RoundRobin T) (count : Nat) :
    r.firstItems (count + 1) =
      r.firstItems count ++ [r.nextItem (UInt64.ofNat count + 1)] := by
  simp [RoundRobin.firstItems, List.range_succ]

theorem RoundRobin.take_firstItems (r : RoundRobin T) {count k : Nat} (hk : k ≤ count)
    (hlt : k ≤ 2 ^ 64) : (r.firstItems count).take k = turns r.items r.nonempty 0 k := by
  have htake : (List.range count).take k = List.range k := by
    rw [List.take_range, Nat.min_eq_left hk]
  unfold RoundRobin.firstItems turns
  rw [← List.map_take, htake, ← List.range_eq_range']
  apply List.map_congr_left
  intro i hi
  have hi : i < 2 ^ 64 := by
    have := List.mem_range.mp hi
    omega
  rw [r.nextItem_ofNat_add_one, Nat.mod_eq_of_lt hi]

/-! ## What every interleaving keeps -/

namespace Balancing

/-- The counter of a handle counts the reads through its origin. -/
structure Counts (s : Balancing R W) (handle : Handle R W) : Prop where
  origin_lt : handle.origin < s.handles.length
  next : handle.set.readTargets.next = handle.origin
  counter : s.counters handle.origin = UInt64.ofNat (s.through handle.origin).length
  through : s.through handle.origin =
    handle.set.readTargets.firstItems (s.through handle.origin).length

structure Inv (s : Balancing R W) : Prop where
  counts : ∀ handle ∈ s.handles, s.Counts handle
  shared : ∀ first ∈ s.handles, ∀ second ∈ s.handles, first.origin = second.origin →
    first.set.readTargets = second.set.readTargets
  selected : ∀ read ∈ s.selected, read.1 < s.handles.length

theorem through_append_self (s : Balancing R W) (origin : Nat) (target : NodeTarget R)
    (counters : Nat → UInt64) :
    through { s with
        counters := counters
        selected := s.selected ++ [(origin, target)] } origin =
      s.through origin ++ [target] := by
  simp [through, List.filter_append]

theorem through_append_of_ne (s : Balancing R W) {origin other : Nat}
    (target : NodeTarget R) (counters : Nat → UInt64) (h : origin ≠ other) :
    through { s with
        counters := counters
        selected := s.selected ++ [(origin, target)] } other = s.through other := by
  simp [through, List.filter_append, h]

theorem Inv.through_fresh {s : Balancing R W} (inv : s.Inv) :
    s.through s.handles.length = [] := by
  have hnone : s.selected.filter (fun read => read.1 = s.handles.length) = [] := by
    rw [List.filter_eq_nil_iff]
    intro read hread
    have := inv.selected read hread
    simp
    omega
  simp [through, hnone]

theorem Inv.initial : (initial : Balancing R W).Inv where
  counts := by simp [Balancing.initial]
  shared := by simp [Balancing.initial]
  selected := by simp [Balancing.initial]

theorem Inv.made {s : Balancing R W} (inv : s.Inv) (name : String) (primary : Node R W)
    (replicas : List (Node R W)) :
    Inv { s with
      handles := s.handles ++ [⟨Topology.newReplicaSet s.handles.length name primary replicas,
        s.handles.length⟩]
      counters := Function.update s.counters s.handles.length 0 } where
  counts := by
    intro handle hmem
    rcases List.mem_append.mp hmem with hold | hnew
    · obtain ⟨hlt, hnext, hcounter, hthrough⟩ := inv.counts handle hold
      refine ⟨?_, hnext, ?_, hthrough⟩
      · simp
        omega
      · exact (Function.update_of_ne (by omega) 0 s.counters).trans hcounter
    · rw [List.mem_singleton.mp hnew]
      have hnone := inv.through_fresh
      refine ⟨by simp, rfl, ?_, ?_⟩
      · change Function.update s.counters s.handles.length 0 s.handles.length =
          UInt64.ofNat (s.through s.handles.length).length
        rw [hnone, Function.update_self]
        rfl
      · change s.through s.handles.length =
          RoundRobin.firstItems _ (s.through s.handles.length).length
        rw [hnone]
        rfl
  shared := by
    intro first hfirst second hsecond horigin
    rcases List.mem_append.mp hfirst with hfirst | hfirst <;>
      rcases List.mem_append.mp hsecond with hsecond | hsecond
    · exact inv.shared first hfirst second hsecond horigin
    · have := (inv.counts first hfirst).origin_lt
      simp only [List.mem_singleton.mp hsecond] at horigin
      omega
    · have := (inv.counts second hsecond).origin_lt
      simp only [List.mem_singleton.mp hfirst] at horigin
      omega
    · rw [List.mem_singleton.mp hfirst, List.mem_singleton.mp hsecond]
  selected := by
    intro read hread
    have := inv.selected read hread
    simp
    omega

theorem Inv.copied {s : Balancing R W} (inv : s.Inv) {source : Handle R W}
    (hsource : source ∈ s.handles) (mirrors : List W) :
    Inv { s with
      handles := s.handles ++
        [⟨source.set.withWriteMirrors s.handles.length mirrors, source.origin⟩] } where
  counts := by
    intro handle hmem
    have hkept : ∀ handle ∈ s.handles, handle.origin < s.handles.length + 1 := by
      intro handle hold
      have := (inv.counts handle hold).origin_lt
      omega
    rcases List.mem_append.mp hmem with hold | hnew
    · obtain ⟨-, hnext, hcounter, hthrough⟩ := inv.counts handle hold
      exact ⟨by simpa using hkept handle hold, hnext, hcounter, hthrough⟩
    · obtain ⟨-, hnext, hcounter, hthrough⟩ := inv.counts source hsource
      rw [List.mem_singleton.mp hnew]
      exact ⟨by simpa using hkept source hsource, hnext, hcounter, hthrough⟩
  shared := by
    -- The copy stands for its source.
    have hstands : ∀ handle ∈ s.handles ++
        [⟨source.set.withWriteMirrors s.handles.length mirrors, source.origin⟩],
        ∃ old ∈ s.handles, old.origin = handle.origin ∧
          old.set.readTargets = handle.set.readTargets := by
      intro handle hmem
      rcases List.mem_append.mp hmem with hold | hnew
      · exact ⟨handle, hold, rfl, rfl⟩
      · rw [List.mem_singleton.mp hnew]
        exact ⟨source, hsource, rfl, rfl⟩
    intro first hfirst second hsecond horigin
    obtain ⟨first', hfirst', hforigin, hfirst⟩ := hstands first hfirst
    obtain ⟨second', hsecond', hsorigin, hsecond⟩ := hstands second hsecond
    rw [← hfirst, ← hsecond]
    exact inv.shared first' hfirst' second' hsecond' (by omega)
  selected := by
    intro read hread
    have := inv.selected read hread
    simp
    omega

theorem Inv.read {s : Balancing R W} (inv : s.Inv) {source : Handle R W}
    (hsource : source ∈ s.handles) :
    Inv { s with
      counters := Function.update s.counters source.set.readTargets.next
        (s.counters source.set.readTargets.next + 1)
      selected := s.selected ++ [(source.origin,
        source.set.selectRead (s.counters source.set.readTargets.next + 1))] } where
  counts := by
    intro handle hmem
    obtain ⟨hlt, hnext, hcounter, hthrough⟩ := inv.counts handle hmem
    have hsnext := (inv.counts source hsource).next
    by_cases horigin : source.origin = handle.origin
    · have hshared := inv.shared source hsource handle hmem horigin
      refine ⟨hlt, hnext, ?_, ?_⟩
      · rw [← horigin, through_append_self, hsnext, horigin]
        simp [hcounter]
      · rw [← horigin, through_append_self, hsnext, horigin, List.length_append,
          List.length_singleton, RoundRobin.firstItems_succ, ← hthrough, hcounter,
          ReplicaSet.selectRead, hshared]
    · refine ⟨hlt, hnext, ?_, ?_⟩
      · rw [through_append_of_ne _ _ _ horigin, ← hcounter, hsnext]
        exact Function.update_of_ne (Ne.symm horigin) _ _
      · rw [through_append_of_ne _ _ _ horigin]
        exact hthrough
  shared := inv.shared
  selected := by
    intro read hread
    rcases List.mem_append.mp hread with hold | hnew
    · exact inv.selected read hold
    · rw [List.mem_singleton.mp hnew]
      exact (inv.counts source hsource).origin_lt

theorem Inv.step {s t : Balancing R W} {action : Action R W} (inv : s.Inv)
    (h : step s action = some t) : t.Inv := by
  cases action with
  | newReplicaSet name primary replicas =>
      cases h
      exact inv.made name primary replicas
  | withWriteMirrors handle mirrors =>
      obtain ⟨source, hsource, ht⟩ := Option.bind_eq_some_iff.mp h
      cases ht
      exact inv.copied (List.mem_of_getElem? hsource) mirrors
  | selectRead handle =>
      obtain ⟨source, hsource, ht⟩ := Option.bind_eq_some_iff.mp h
      cases ht
      exact inv.read (List.mem_of_getElem? hsource)

theorem Reachable.inv {s : Balancing R W} (h : s.Reachable) : s.Inv :=
  Reaches.invariant h .initial Inv.step

end Balancing

/-! ## The targets -/

theorem length_newReadTargets (primary : Node R W) (replicas : List (Node R W)) :
    (newReadTargets primary replicas).length = max 1 replicas.length := by
  unfold newReadTargets
  cases replicas with
  | nil => simp
  | cons replica replicas => simp

theorem nodup_newReadTargets (primary : Node R W) (replicas : List (Node R W)) :
    (newReadTargets primary replicas).Nodup := by
  unfold newReadTargets
  split
  · exact List.nodup_singleton _
  · -- The names of the replicas end in their indices.
    apply List.Nodup.of_map NodeTarget.name
    rw [List.map_map]
    change (replicas.zipIdx.map
      ((fun index : Nat => "replica-" ++ toString index) ∘ Prod.snd)).Nodup
    rw [← List.map_map, List.zipIdx_map_snd]
    apply List.Nodup.map _ List.nodup_range'
    intro i j hij
    have htext : toString i = toString j := by simpa using hij
    exact toString_nat_inj.mp htext

theorem role_of_readsFrom {primary : Node R W} {replicas : List (Node R W)}
    {target : NodeTarget R} (h : ReadsFrom primary replicas target)
    (hreplicas : replicas ≠ []) :
    target.role = .readReplica ∧ ∃ replica ∈ replicas, target.value = replica.reader := by
  cases h with
  | primary hnil => exact absurd hnil hreplicas
  | replica index replica hindex =>
      exact ⟨rfl, replica, List.mem_of_getElem? hindex, rfl⟩

/-- A share of `count` turns, rounded down or up. -/
theorem share_of_count {l : List T} [DecidableEq T] {h : l ≠ []} (hnodup : l.Nodup)
    {x : T} (hx : x ∈ l) (count : Nat) :
    (turns l h 0 count).count x = count / l.length ∨
      (turns l h 0 count).count x = (count + l.length - 1) / l.length := by
  obtain ⟨j, hj, rfl⟩ := List.getElem_of_mem hx
  rw [count_turns hnodup hj]
  split
  · right
    rename_i hlt
    have hdiv := Nat.div_add_mod count l.length
    have hmod := Nat.mod_lt count (List.length_pos_iff.mpr h)
    symm
    apply Nat.div_eq_of_lt_le
    · rw [Nat.add_mul, Nat.mul_comm]
      omega
    · rw [Nat.add_mul, Nat.add_mul, Nat.mul_comm]
      omega
  · left
    rfl

namespace Balancing

theorem Reachable.through_eq {s : Balancing R W} (h : s.Reachable) {handle : Handle R W}
    (hmem : handle ∈ s.handles) :
    s.through handle.origin =
      handle.set.readTargets.firstItems (s.through handle.origin).length :=
  (h.inv.counts handle hmem).through

/--
Reads are balanced over the targets of a replica set: in every interleaving,
through the set and its copies, as long as the counter has not wrapped.
-/
theorem reads_are_balanced [DecidableEq R] {s : Balancing R W} (h : s.Reachable)
    {address : Nat} {name : String} {primary : Node R W} {replicas : List (Node R W)}
    (hmade : s.handles[address]? =
      some ⟨newReplicaSet address name primary replicas, address⟩) :
    let targets := newReadTargets primary replicas
    let reads := s.through address
    targets.length = max 1 replicas.length ∧ targets.Nodup ∧
    (∀ start, start + targets.length ≤ reads.length → start + targets.length ≤ 2 ^ 64 →
      ((reads.drop start).take targets.length).Perm targets) ∧
    (∀ count ≤ reads.length, count ≤ 2 ^ 64 → ∀ target ∈ targets,
      (reads.take count).count target = count / targets.length ∨
      (reads.take count).count target = (count + targets.length - 1) / targets.length) ∧
    (∀ handle ∈ s.handles, handle.origin = address → ∀ counter : UInt64,
      targets[counter.toNat % targets.length]? =
        some (handle.set.selectRead (counter + 1))) ∧
    (replicas ≠ [] → ∀ target ∈ reads, target.role = .readReplica ∧
      ∃ replica ∈ replicas, target.value = replica.reader) := by
  intro targets reads
  have hmem := List.mem_of_getElem? hmade
  have hne : targets ≠ [] := newReadTargets_ne_nil primary replicas
  have hnodup : targets.Nodup := nodup_newReadTargets primary replicas
  have hreads : reads = (newReplicaSet address name primary replicas).readTargets.firstItems
      reads.length := h.through_eq hmem
  have hturns : ∀ count ≤ reads.length, count ≤ 2 ^ 64 →
      reads.take count = turns targets hne 0 count := by
    intro count hcount hlt
    rw [hreads, RoundRobin.take_firstItems _ (by simpa using hcount) hlt]
    rfl
  refine ⟨length_newReadTargets primary replicas, hnodup, ?_, ?_, ?_, ?_⟩
  · intro start hlength hlt
    have hwindow : (reads.drop start).take targets.length =
        ((reads.take (start + targets.length)).drop start).take targets.length := by
      rw [List.drop_take, Nat.add_sub_cancel_left, List.take_take, Nat.min_self]
    rw [hwindow, hturns _ hlength hlt, drop_take_turns (Nat.le_refl _)]
    exact turns_perm _
  · intro count hcount hlt target htarget
    rw [hturns count hcount hlt]
    exact share_of_count hnodup htarget count
  · intro handle hhandle horigin counter
    have hshared : handle.set.readTargets =
        (newReplicaSet address name primary replicas).readTargets :=
      h.inv.shared handle hhandle _ hmem horigin
    rw [ReplicaSet.selectRead, hshared]
    exact (newReplicaSet address name primary replicas).readTargets.getElem?_items counter
  · intro hreplicas target htarget
    rw [hreads] at htarget
    obtain ⟨i, -, rfl⟩ := List.mem_map.mp htarget
    exact role_of_readsFrom (readsFrom_of_mem (RoundRobin.nextItem_mem _ _)) hreplicas

/-- Reads through a set with two replicas and through a copy of it, in turn. -/
def mixedReads : List (Action Nat Nat) :=
  [.newReplicaSet "main" ⟨0, 0⟩ [⟨1, 1⟩, ⟨2, 2⟩], .selectRead 0,
    .withWriteMirrors 0 [7], .selectRead 1, .selectRead 0]

def mixed : Balancing Nat Nat where
  handles := [⟨newReplicaSet 0 "main" ⟨0, 0⟩ [⟨1, 1⟩, ⟨2, 2⟩], 0⟩,
    ⟨(newReplicaSet 0 "main" ⟨0, 0⟩ [⟨1, 1⟩, ⟨2, 2⟩]).withWriteMirrors 1 [7], 0⟩]
  counters := Function.update (Function.update (Function.update (Function.update
    (fun _ => 0) 0 0) 0 1) 0 2) 0 3
  selected := [(0, ⟨1, "replica-0", .readReplica⟩), (0, ⟨2, "replica-1", .readReplica⟩),
    (0, ⟨1, "replica-0", .readReplica⟩)]

theorem mixed_reachable : mixed.Reachable :=
  ⟨mixedReads, rfl⟩

theorem reads_are_balanced_mixed :
    (((mixed.through 0).drop 1).take 2).Perm
      (newReadTargets (⟨0, 0⟩ : Node Nat Nat) [⟨1, 1⟩, ⟨2, 2⟩]) := by
  have hmade : mixed.handles[0]? =
      some ⟨newReplicaSet 0 "main" ⟨0, 0⟩ [⟨1, 1⟩, ⟨2, 2⟩], 0⟩ := rfl
  obtain ⟨-, -, window, -⟩ := reads_are_balanced mixed_reachable hmade
  exact window 1 (by decide) (by decide)

end Balancing

end PgMesh.Topology
