import PgMesh.Copy.Flush
import PgMesh.Store.Grouping

/-!
# The asynchronous COPY and its flush

A routed `:copyfrom` query has one copy batcher for each replica set.  The
generated methods `CopyXAsync` and `FlushX` take the mutex `state.mu`, go over
the batchers one after the other and release it.  Between two of their steps
every batcher goes on by itself.
-/

namespace PgMesh.Store

open PgMesh.Foundation
open PgMesh.Topology
open PgMesh.Copy
open PgMesh.Copy.Batcher (Reply)

/-- A call of `CopyXAsync` that has passed its checks under the mutex. -/
structure CopyCall (Item ρ α ε : Type) where
  arg : List Item
  groups : List (CopyShardGroup ρ α)
  remaining : List (CopyShardGroup ρ α)
  asyncResults : List (String × Reply ε)

/--
A call of `FlushX`, with the replica sets still to flush and the index of each
flush in its batcher.  `callsBefore` records how many calls of `CopyXAsync`
were accepted when it took the mutex.
-/
structure FlushCall where
  callsBefore : Nat
  remaining : List String
  flushes : List (String × Nat)

inductive MuHolder where
  | copying (call : Nat)
  | flushing (flush : Nat)
  deriving DecidableEq, Repr

/-- The batching state of one query, with the calls made so far. -/
structure CopyBatchState (Item ρ α ε : Type) where
  enabled : Bool
  batchers : GoMap String (Batcher α ε)
  mu : Option MuHolder
  calls : List (CopyCall Item ρ α ε)
  flushes : List FlushCall

/-- The calls that reach a batcher only through the generated methods. -/
def isCall {α ε : Type} : Action α ε → Bool
  | .submit .. => true
  | .flushAsync _ => true
  | _ => false

inductive AsyncAction (Item α ε : Type) where
  | copyAsync (arg : List Item) (ctxErr : Option (GoError ε))
  | submit
  | copyUnlock
  | flush
  | flushAsync (order : List Nat)
  | flushUnlock
  | batcher (name : String) (action : Action α ε)

variable {ρ κ A Item α ε : Type} [Named ρ] [Inhabited κ]

def asyncMethodName (q : CopyQuery Item A α) : String := q.methodName ++ "Async"

/-- `CopyXAsync` up to the point where it takes the mutex. -/
def asyncCopyGroups (s : MeshStore ρ κ A) (q : CopyQuery Item A α)
    (arg : List Item) : Except (GoError ε) (List (CopyShardGroup ρ α)) :=
  match groupRows s q (asyncMethodName q) [] arg.zipIdx with
  | .error err => .error err
  | .ok groupsByName => .ok (populated s.mesh groupsByName)

theorem asyncCopyGroups_ok {s : MeshStore ρ κ A} {q : CopyQuery Item A α}
    {arg : List Item} {groups : List (CopyShardGroup ρ α)}
    (h : asyncCopyGroups (ε := ε) s q arg = .ok groups) :
    ∃ groupsByName, Grouped s q arg groupsByName ∧
      groups = populated s.mesh groupsByName ∧
      ∀ item ∈ arg, s.targetName? (q.route item) ≠ none := by
  unfold asyncCopyGroups at h
  split at h
  · cases h
  · rename_i groupsByName hrows
    cases h
    obtain ⟨hgrouped, htargets⟩ := groupRows_ok hrows
    exact ⟨groupsByName, hgrouped, rfl, htargets⟩

namespace CopyBatchState

/-- The loop of `initializeCopyBatchers` for one query. -/
def openBatchers (q : CopyQuery Item A α) (config : CopyBatchConfig) :
    GoMap String (Batcher α ε) → List ρ →
      Except (GoError ε) (GoMap String (Batcher α ε))
  | batchers, [] => .ok batchers
  | batchers, replicaSet :: replicaSets =>
      match newCopyBatcher config false with
      | .error err =>
          .error (.errorf ("configure " ++ q.methodName ++ " copy batching: %w")
            [.wrapped err])
      | .ok batcher =>
          openBatchers q config (GoMap.set batchers (name replicaSet) batcher)
            replicaSets

def initializeCopyBatchers (s : MeshStore ρ κ A) (q : CopyQuery Item A α)
    (configured : Option CopyBatchConfig) :
    Except (GoError ε) (CopyBatchState Item ρ α ε) :=
  match openBatchers q (configured.getD ⟨0, 0, 0⟩) [] s.mesh.replicaSets with
  | .error err => .error err
  | .ok batchers => .ok ⟨configured.isSome, batchers, none, [], []⟩

/-- What `CopyXAsync` returns at once, or that the call is accepted. -/
inductive AsyncReply (ε : Type) where
  | resolved (value : Int64) (err : Option (GoError ε))
  | accepted (call : Nat)

/-- `CopyXAsync` up to its first `Submit`; `none` means that it waits for the mutex. -/
def copyAsync (s : MeshStore ρ κ A) (q : CopyQuery Item A α)
    (st : CopyBatchState Item ρ α ε) (arg : List Item)
    (ctxErr : Option (GoError ε)) :
    Option (CopyBatchState Item ρ α ε × AsyncReply ε) :=
  match asyncCopyGroups s q arg with
  | .error err => some (st, .resolved 0 (some err))
  | .ok groups =>
      if groups.length = 0 then some (st, .resolved 0 none)
      else
        match st.mu, ctxErr with
        | some _, _ => none
        | none, some err => some (st, .resolved 0 (some err))
        | none, none =>
            match groups.find? fun group =>
              (GoMap.get? st.batchers group.shard.replicaSetName).isNone with
            | some group =>
                some (st, .resolved 0 (some (.errorf
                  ("query " ++ asyncMethodName q ++
                    " has no copy batcher for replica set %q")
                  [.text group.shard.replicaSetName])))
            | none =>
                some ({ st with
                  mu := some (.copying st.calls.length)
                  calls := st.calls ++ [⟨arg, groups, groups, []⟩] },
                  .accepted st.calls.length)

/-- The last call of `Submit` has released its batcher's lock. -/
def returned (st : CopyBatchState Item ρ α ε)
    (asyncResults : List (String × Reply ε)) : Bool :=
  match asyncResults.getLast? with
  | some (shardName, .pending request) =>
      ((GoMap.get? st.batchers shardName).bind Batcher.lock).all
        (·.request ≠ request)
  | _ => true

/-- The holder of the mutex calls `Submit` or `SubmitUnbatched` for its next group. -/
def submit (st : CopyBatchState Item ρ α ε) :
    Option (CopyBatchState Item ρ α ε) :=
  match st.mu with
  | some (.copying i) =>
      match st.calls[i]? with
      | some ⟨arg, groups, group :: remaining, asyncResults⟩ =>
          if st.returned asyncResults then
            match GoMap.get? st.batchers group.shard.replicaSetName with
            | none => none
            | some batcher =>
                match batcher.submit group.args st.enabled none none with
                | none => none
                | some (batcher, reply) =>
                    some { st with
                      batchers := GoMap.set st.batchers
                        group.shard.replicaSetName batcher
                      calls := st.calls.set i ⟨arg, groups, remaining,
                        asyncResults ++
                          [(group.shard.replicaSetName, reply)]⟩ }
          else none
      | _ => none
  | _ => none

def copyUnlock (st : CopyBatchState Item ρ α ε) :
    Option (CopyBatchState Item ρ α ε) :=
  match st.mu with
  | some (.copying i) =>
      match st.calls[i]? with
      | some ⟨_, _, [], asyncResults⟩ =>
          if st.returned asyncResults then some { st with mu := none } else none
      | _ => none
  | _ => none

/-- `FlushX` takes the mutex. -/
def flush (s : MeshStore ρ κ A) (st : CopyBatchState Item ρ α ε) :
    Option (CopyBatchState Item ρ α ε) :=
  match st.mu with
  | some _ => none
  | none =>
      some { st with
        mu := some (.flushing st.flushes.length)
        flushes := st.flushes ++
          [⟨st.calls.length, s.mesh.replicaSets.map name, []⟩] }

/-- The holder of the mutex calls `FlushAsync` on its next batcher. -/
def flushAsync (st : CopyBatchState Item ρ α ε) (order : List Nat) :
    Option (CopyBatchState Item ρ α ε) :=
  match st.mu with
  | some (.flushing j) =>
      match st.flushes[j]? with
      | some ⟨callsBefore, shardName :: remaining, flushes⟩ =>
          match GoMap.get? st.batchers shardName with
          | none =>
              some { st with
                flushes := st.flushes.set j ⟨callsBefore, remaining, flushes⟩ }
          | some batcher =>
              match batcher.flushAsync order with
              | none => none
              | some next =>
                  some { st with
                    batchers := GoMap.set st.batchers shardName next
                    flushes := st.flushes.set j ⟨callsBefore, remaining,
                      flushes ++ [(shardName, batcher.flushes.length)]⟩ }
      | _ => none
  | _ => none

def flushUnlock (st : CopyBatchState Item ρ α ε) :
    Option (CopyBatchState Item ρ α ε) :=
  match st.mu with
  | some (.flushing j) =>
      match st.flushes[j]? with
      | some ⟨_, [], _⟩ => some { st with mu := none }
      | _ => none
  | _ => none

/-- A batcher goes on by itself. -/
def batcherStep (st : CopyBatchState Item ρ α ε) (shardName : String)
    (action : Action α ε) : Option (CopyBatchState Item ρ α ε) :=
  if isCall action then none
  else
    match GoMap.get? st.batchers shardName with
    | none => none
    | some batcher =>
        match batcher.step action with
        | none => none
        | some next =>
            some { st with batchers := GoMap.set st.batchers shardName next }

def step (s : MeshStore ρ κ A) (q : CopyQuery Item A α)
    (st : CopyBatchState Item ρ α ε) :
    AsyncAction Item α ε → Option (CopyBatchState Item ρ α ε)
  | .copyAsync arg ctxErr => (st.copyAsync s q arg ctxErr).map Prod.fst
  | .submit => st.submit
  | .copyUnlock => st.copyUnlock
  | .flush => st.flush s
  | .flushAsync order => st.flushAsync order
  | .flushUnlock => st.flushUnlock
  | .batcher shardName action => st.batcherStep shardName action

end CopyBatchState

end PgMesh.Store
