import PgMesh.Foundation.Goroutines
import PgMesh.Store.GroupedMany
import PgMesh.Topology.ReplicaSet

/-!
# Generated query wrappers

The generator wraps the sqlc type `Queries` twice: `ReadQueries` has the read
methods, `WriteQueries` the write methods, which repeat a statement on the
mirrors.  `QueryStore` embeds both and is the writer of a node.
-/

namespace PgMesh.Store

open PgMesh.Foundation
open PgMesh.Topology

variable {δ τ S V ε : Type}

/-- Where a statement is executed: `δ` are the pools of the nodes, `τ` transactions. -/
inductive DBTX (δ τ : Type) where
  | pool (database : δ)
  | tx (transaction : τ)
  deriving DecidableEq

/-- The sqlc type `Queries`. -/
structure Queries (δ τ : Type) where
  db : DBTX δ τ
  deriving DecidableEq

def Queries.withTx (_q : Queries δ τ) (tx : τ) : Queries δ τ := ⟨.tx tx⟩

structure ReadQueries (δ τ : Type) where
  main : Queries δ τ
  deriving DecidableEq

structure WriteQueries (δ τ : Type) where
  main : Queries δ τ
  mirrors : List (Queries δ τ)
  deriving DecidableEq

structure QueryStore (δ τ : Type) where
  readQueries : ReadQueries δ τ
  writeQueries : WriteQueries δ τ
  deriving DecidableEq

def newQueryStore (q : Queries δ τ) (mirrors : List (Queries δ τ)) :
    QueryStore δ τ :=
  ⟨⟨q⟩, ⟨q, mirrors⟩⟩

namespace QueryStore

def withTx (q : QueryStore δ τ) (tx : τ) : QueryStore δ τ :=
  newQueryStore (q.writeQueries.main.withTx tx) []

/-- A nil mirror is skipped. -/
def withMirrors (q : QueryStore δ τ) (qs : List (Option (QueryStore δ τ))) :
    QueryStore δ τ :=
  newQueryStore q.writeQueries.main
    (qs.foldl (fun mirrors mirror =>
      match mirror with
      | none => mirrors
      | some mirror =>
          mirrors ++ [mirror.writeQueries.main] ++ mirror.writeQueries.mirrors)
      q.writeQueries.mirrors)

instance : MirrorableWriter (QueryStore δ τ) where
  withMirrors q qs := q.withMirrors (qs.map some)

end QueryStore

def newStoreNode (database : δ) : Node (ReadQueries δ τ) (QueryStore δ τ) :=
  ⟨⟨⟨.pool database⟩⟩, newQueryStore ⟨.pool database⟩ []⟩

/-! ## Query options -/

inductive QueryOption (τ : Type) where
  | readFromPrimary
  | withTx (tx : Option τ)
  deriving DecidableEq

/-- The structure `queryOptions`, with the transaction itself. -/
structure CallOptions (τ : Type) where
  primary : Bool
  tx : Option τ
  deriving DecidableEq

def QueryOption.apply (options : CallOptions τ) : QueryOption τ → CallOptions τ
  | .readFromPrimary => { options with primary := true }
  | .withTx tx => { options with tx := tx }

/-- A nil option is skipped. -/
def applyQueryOption (result : CallOptions τ) :
    Option (QueryOption τ) → CallOptions τ
  | none => result
  | some option => option.apply result

def applyQueryOptions (options : List (Option (QueryOption τ))) : CallOptions τ :=
  options.foldl applyQueryOption ⟨false, none⟩

/-- What the routing of a call reads of its options. -/
def CallOptions.flags (options : CallOptions τ) : QueryOptions :=
  ⟨options.tx.isSome, options.primary⟩

/-! ## Methods -/

/-- What a method does besides computing; `S` are the arguments of the statement. -/
inductive Request (δ τ S : Type) where
  | add (counter : Nat)
  | startPhysicalQuerySpan (metadata : RouteMetadata) (mode : RouteMode)
  | execute (queries : Queries δ τ) (arg : S)

/-- The counter after `Add(1)`, or what a statement returned. -/
def Answer (V ε : Type) : Request δ τ S → Type
  | .add _ => UInt64
  | .startPhysicalQuerySpan _ _ => Unit
  | .execute _ _ => V × Option (GoError ε)

abbrev Method (δ τ S V ε α : Type) :=
  Program (Request δ τ S) (Answer V ε) α

abbrev MethodEvent (δ τ S V ε : Type) := Event (Request δ τ S) (Answer V ε)

/-- What the generator fixes about mirrors; `isErrNoRows` is `errors.Is(err, sql.ErrNoRows)`. -/
structure MirrorErrors (ε : Type) where
  ignoreMirrorError : Bool
  isErrNoRows : GoError ε → Bool

/-- What the wrappers of one query depend on. -/
structure QuerySpec (ε : Type) extends MirrorErrors ε where
  kind : QueryKind
  returnsError : Bool

/-- The method `mirror`, over the mirrors that are left. -/
def mirror (errors : MirrorErrors ε) (arg : S) :
    List (Queries δ τ) → Method δ τ S V ε (Option (GoError ε))
  | [] => .done none
  | q :: mirrors =>
      .ask (.execute q arg) fun result =>
        match result.2 with
        | none => mirror errors arg mirrors
        | some err =>
            if errors.ignoreMirrorError || errors.isErrNoRows err then
              mirror errors arg mirrors
            else .done (some err)

section Call

variable [Inhabited V]

def ReadQueries.call (spec : QuerySpec ε) (q : ReadQueries δ τ) (arg : S) :
    Method δ τ S V ε (V × Option (GoError ε)) :=
  .ask (.execute q.main arg) fun result =>
    if !spec.returnsError then .done (result.1, none)
    else
      match result.2 with
      | some err => .done (default, some err)
      | none => .done (result.1, none)

def WriteQueries.call (spec : QuerySpec ε) (q : WriteQueries δ τ) (arg : S) :
    Method δ τ S V ε (V × Option (GoError ε)) :=
  .ask (.execute q.main arg) fun result =>
    if !spec.returnsError then .done (result.1, none)
    else
      match result.2 with
      | some err => .done (default, some err)
      | none =>
          (mirror spec.toMirrorErrors arg q.mirrors).bind fun mirrorErr =>
            if spec.ignoreMirrorError then .done (result.1, none)
            else .done (result.1, mirrorErr)

/-- The method that `QueryStore` has from the wrapper of the query's kind. -/
def QueryStore.call (spec : QuerySpec ε) (q : QueryStore δ τ) (arg : S) :
    Method δ τ S V ε (V × Option (GoError ε)) :=
  match spec.kind with
  | .read => q.readQueries.call spec arg
  | .write => q.writeQueries.call spec arg

end Call

/-! ## Mirrors -/

theorem QueryStore.withMirrors_some (q : QueryStore δ τ)
    (qs : List (QueryStore δ τ)) :
    q.withMirrors (qs.map some) =
      newQueryStore q.writeQueries.main (q.writeQueries.mirrors ++
        qs.flatMap fun mirror =>
          mirror.writeQueries.main :: mirror.writeQueries.mirrors) := by
  have hfold : ∀ mirrors : List (Queries δ τ),
      (qs.map some).foldl (fun mirrors mirror =>
        match mirror with
        | none => mirrors
        | some mirror =>
            mirrors ++ [mirror.writeQueries.main] ++ mirror.writeQueries.mirrors)
        mirrors =
      mirrors ++ qs.flatMap fun mirror =>
        mirror.writeQueries.main :: mirror.writeQueries.mirrors := by
    induction qs with
    | nil => simp
    | cons q qs ih =>
        intro mirrors
        rw [List.map_cons, List.foldl_cons, ih]
        simp
  rw [QueryStore.withMirrors, hfold]

/-- The mirrors of fresh nodes are their pools, with no mirrors of their own. -/
theorem withMirrors_newStoreNode (database : δ) (databases : List δ) :
    withMirrors (newStoreNode (τ := τ) database).writer
        (databases.map fun d => (newStoreNode d).writer) =
      newQueryStore ⟨.pool database⟩ (databases.map fun d => ⟨.pool d⟩) := by
  change QueryStore.withMirrors _ _ = _
  rw [QueryStore.withMirrors_some]
  induction databases with
  | nil => rfl
  | cons d databases ih =>
      simp only [newStoreNode, newQueryStore, List.map_cons, List.flatMap_cons] at ih ⊢
      simpa using ih

/-- A statement is repeated on the mirrors in turn, until one of them fails. -/
inductive MirrorsInTurn (errors : MirrorErrors ε) (arg : S) :
    List (Queries δ τ) → List (MethodEvent δ τ S V ε) → Option (GoError ε) → Prop
  | nil : MirrorsInTurn errors arg [] [] none
  | next (q : Queries δ τ) (value : V) (err : Option (GoError ε))
      {mirrors : List (Queries δ τ)} {events : List (MethodEvent δ τ S V ε)}
      {result : Option (GoError ε)} :
      (∀ e, err = some e → errors.isErrNoRows e = true) →
      MirrorsInTurn errors arg mirrors events result →
        MirrorsInTurn errors arg (q :: mirrors)
          (⟨.execute q arg, (value, err)⟩ :: events) result
  | stop (q : Queries δ τ) (value : V) (err : GoError ε)
      (mirrors : List (Queries δ τ)) :
      errors.isErrNoRows err = false →
        MirrorsInTurn errors arg (q :: mirrors)
          [⟨.execute q arg, (value, some err)⟩] (some err)

theorem mirror_runs {errors : MirrorErrors ε} {arg : S}
    (hignore : errors.ignoreMirrorError = false) {mirrors : List (Queries δ τ)}
    {events : List (MethodEvent δ τ S V ε)} {result : Option (GoError ε)} :
    (mirror errors arg mirrors).Runs events (.done result) ↔
      MirrorsInTurn errors arg mirrors events result := by
  induction mirrors generalizing events with
  | nil =>
      constructor
      · intro h
        obtain ⟨rfl, hresult⟩ := Program.runs_done.mp h
        cases hresult
        exact .nil
      · intro h
        cases h
        exact .refl _
  | cons q mirrors ih =>
      simp only [mirror, Program.runs_ask_done]
      constructor
      · rintro ⟨⟨value, err⟩, rest, rfl, hrest⟩
        cases err with
        | none => exact .next q value none (by simp) (ih.mp hrest)
        | some err =>
            cases hrows : errors.isErrNoRows err with
            | true =>
                simp only [hrows, Bool.or_true, if_true] at hrest
                refine .next q value (some err) ?_ (ih.mp hrest)
                rintro e ⟨⟩
                exact hrows
            | false =>
                simp only [hignore, hrows, Bool.or_false, Bool.false_eq_true,
                  if_false] at hrest
                obtain ⟨rfl, hresult⟩ := Program.runs_done.mp hrest
                cases hresult
                exact .stop q value err mirrors hrows
      · intro h
        cases h with
        | next q value err hrows hrest =>
            refine ⟨(value, err), _, rfl, ?_⟩
            cases err with
            | none => exact ih.mpr hrest
            | some err =>
                simp only [hrows err rfl, Bool.or_true, if_true]
                exact ih.mpr hrest
        | stop q value err mirrors hrows =>
            refine ⟨(value, some err), [], rfl, ?_⟩
            simp only [hignore, hrows, Bool.or_false, Bool.false_eq_true, if_false]
            exact .refl _

section Write

variable [Inhabited V]

/-- A write runs on the primary and, unless that fails, on the mirrors in turn. -/
inductive WritesInTurn (errors : MirrorErrors ε) (arg : S) (main : Queries δ τ)
    (mirrors : List (Queries δ τ)) :
    List (MethodEvent δ τ S V ε) → V × Option (GoError ε) → Prop
  | fails (value : V) (err : GoError ε) :
      WritesInTurn errors arg main mirrors
        [⟨.execute main arg, (value, some err)⟩] (default, some err)
  | mirrored (value : V) {events : List (MethodEvent δ τ S V ε)}
      {mirrorErr : Option (GoError ε)} :
      MirrorsInTurn errors arg mirrors events mirrorErr →
        WritesInTurn errors arg main mirrors
          (⟨.execute main arg, (value, none)⟩ :: events) (value, mirrorErr)

theorem WriteQueries.call_runs {spec : QuerySpec ε} {q : WriteQueries δ τ} {arg : S}
    (herror : spec.returnsError = true) (hignore : spec.ignoreMirrorError = false)
    {events : List (MethodEvent δ τ S V ε)} {result : V × Option (GoError ε)} :
    (q.call spec arg).Runs events (.done result) ↔
      WritesInTurn spec.toMirrorErrors arg q.main q.mirrors events result := by
  simp only [WriteQueries.call, herror, hignore, Bool.not_true, Bool.false_eq_true,
    if_false, Program.runs_ask_done]
  constructor
  · rintro ⟨⟨value, err⟩, rest, rfl, hrest⟩
    cases err with
    | some err =>
        obtain ⟨rfl, hresult⟩ := Program.runs_done.mp hrest
        cases hresult
        exact .fails value err
    | none =>
        obtain ⟨before, mirrorErr, after, rfl, hbefore, hafter⟩ :=
          Program.runs_bind_done.mp hrest
        obtain ⟨rfl, hresult⟩ := Program.runs_done.mp hafter
        cases hresult
        rw [List.append_nil]
        exact .mirrored value ((mirror_runs hignore).mp hbefore)
  · intro h
    cases h with
    | fails value err => exact ⟨(value, some err), [], rfl, .refl _⟩
    | mirrored value h =>
        refine ⟨(value, none), _, rfl, Program.runs_bind_done.mpr ?_⟩
        exact ⟨_, _, [], (List.append_nil _).symm, (mirror_runs hignore).mpr h, .refl _⟩

end Write

/-! ## What the wrappers execute -/

section Asks

variable {P : Request δ τ S → Prop}

theorem mirror_asks {errors : MirrorErrors ε} {arg : S}
    {mirrors : List (Queries δ τ)} (h : ∀ q ∈ mirrors, P (.execute q arg)) :
    (mirror (V := V) errors arg mirrors).Asks P := by
  induction mirrors with
  | nil => trivial
  | cons q mirrors ih =>
      have hrest := ih fun q' hq' => h q' (List.mem_cons_of_mem _ hq')
      refine ⟨h q List.mem_cons_self, ?_⟩
      rintro ⟨value, err⟩
      cases err with
      | none => exact hrest
      | some err =>
          cases hskip : errors.ignoreMirrorError || errors.isErrNoRows err with
          | true => simpa [hskip] using hrest
          | false => simp [hskip, Program.Asks]

variable [Inhabited V]

theorem ReadQueries.call_asks {spec : QuerySpec ε}
    {q : ReadQueries δ τ} {arg : S} (h : P (.execute q.main arg)) :
    (q.call (V := V) spec arg).Asks P := by
  refine ⟨h, ?_⟩
  rintro ⟨value, err⟩
  cases spec.returnsError <;> cases err <;> simp [Program.Asks]

theorem WriteQueries.call_asks {spec : QuerySpec ε}
    {q : WriteQueries δ τ} {arg : S} (hmain : P (.execute q.main arg))
    (hmirrors : ∀ q' ∈ q.mirrors, P (.execute q' arg)) :
    (q.call (V := V) spec arg).Asks P := by
  refine ⟨hmain, ?_⟩
  rintro ⟨value, err⟩
  cases spec.returnsError with
  | false => simp [Program.Asks]
  | true =>
      cases err with
      | some err => simp [Program.Asks]
      | none =>
          simp only [Bool.not_true, Bool.false_eq_true, if_false]
          apply (mirror_asks hmirrors).bind
          intro mirrorErr
          cases spec.ignoreMirrorError <;> simp [Program.Asks]

theorem QueryStore.call_asks {spec : QuerySpec ε}
    {q : QueryStore δ τ} {arg : S} (hread : P (.execute q.readQueries.main arg))
    (hmain : P (.execute q.writeQueries.main arg))
    (hmirrors : ∀ q' ∈ q.writeQueries.mirrors, P (.execute q' arg)) :
    (q.call (V := V) spec arg).Asks P := by
  unfold QueryStore.call
  cases spec.kind with
  | read => exact ReadQueries.call_asks hread
  | write => exact WriteQueries.call_asks hmain hmirrors

end Asks

end PgMesh.Store
