import Mathlib.Data.Nat.SuccPred
import PgMesh.Foundation.Retry
import PgMesh.Foundation.Scopes
import PgMesh.Foundation.Text
import PgMesh.Plugin.Independence

/-!
# Names in a store method

The generator writes one method of the store for every query.  The parameters
have names that come from SQL columns, the body is one of four templates with
variables of its own.  A method is modelled by the names that it binds and by
the arguments that it passes to the sqlc method; expressions are left out.
-/

namespace PgMesh.Plugin

open PgMesh.Foundation

/-! ## Names of the results -/

/-- The loop over suffixes; it is given one more round than there are names. -/
def uniqueSuffix (preferred : String) (usedNames : List String) : Nat → Nat → Option String
  | 0, _ => none
  | rounds + 1, suffix =>
      let candidate := preferred ++ toString suffix
      if candidate ∈ usedNames then uniqueSuffix preferred usedNames rounds (suffix + 1)
      else some candidate

def uniqueGeneratedName (preferred : String) (usedNames : List String) : String :=
  if preferred ∈ usedNames then
    (uniqueSuffix preferred usedNames (usedNames.length + 1) 2).getD ""
  else preferred

def preferredName (count index : Nat) (result : String) : String :=
  if index = count - 1 ∧ result = resultErrorName then "err"
  else if count > 2 then "result" ++ toString index
  else "result"

def nameResults (count : Nat) : List (String × Nat) → List String → List String
  | [], _ => []
  | (result, index) :: results, usedNames =>
      let name := uniqueGeneratedName (preferredName count index result) usedNames
      name :: nameResults count results (name :: usedNames)

def namedResultsSignature (params : List Argument) (results reservedNames : List String) :
    List String :=
  nameResults results.length results.zipIdx (params.map Argument.name ++ reservedNames)

/-! ## The templates -/

/-- The variable that an argument of the call is read from. -/
def CallArg.root : CallArg → String
  | .param name => name
  | .sqlcParams => defaultArgumentName
  | .expr _ => defaultArgumentName

open Stmt

/-- The names that results get: `result` or `err` with decimal digits after it. -/
def isResultName (name : String) : Bool :=
  ["result", "err"].any fun base =>
    base.toList.isPrefixOf name.toList && (name.toList.drop base.toList.length).all Char.isDigit

theorem isResultName_append {name base : String} {digits : List Char}
    (hbase : base ∈ ["result", "err"]) (hname : name.toList = base.toList ++ digits)
    (hdigits : ∀ c ∈ digits, c.isDigit = true) : isResultName name = true := by
  rw [isResultName, List.any_eq_true]
  refine ⟨base, hbase, ?_⟩
  rw [hname, Bool.and_eq_true, List.isPrefixOf_iff_prefix, List.drop_left, List.all_eq_true]
  exact ⟨List.prefix_append _ _, hdigits⟩

theorem uniqueSuffix_eq_firstFree (preferred : String) (usedNames : List String)
    (rounds suffix : Nat) :
    uniqueSuffix preferred usedNames rounds suffix =
      (firstFree Nat.succ (fun n => preferred ++ toString n) usedNames rounds suffix).map
        fun n => preferred ++ toString n := by
  induction rounds generalizing suffix with
  | zero => rfl
  | succ rounds ih =>
      rw [uniqueSuffix, firstFree]
      split
      · exact ih (suffix + 1)
      · rfl

theorem uniqueSuffix_eq_some {preferred name : String} {usedNames : List String}
    {rounds suffix : Nat} (h : uniqueSuffix preferred usedNames rounds suffix = some name) :
    name ∉ usedNames ∧ ∃ n : Nat, name = preferred ++ toString n := by
  rw [uniqueSuffix_eq_firstFree] at h
  obtain ⟨n, hn, rfl⟩ := Option.map_eq_some_iff.mp h
  exact ⟨(firstFree_eq_some hn).1, n, rfl⟩

/-- There are more suffixes than names, so the loop ends. -/
theorem exists_uniqueSuffix (preferred : String) (usedNames : List String) (suffix : Nat) :
    ∃ name, ∀ rounds, usedNames.length < rounds →
      uniqueSuffix preferred usedNames rounds suffix = some name := by
  let key : Nat → String := fun n => preferred ++ toString n
  have hkeys : Function.Injective fun i => key (Nat.succ^[i] suffix) := by
    intro i j hij
    have hij := toString_nat_inj.mp ((String.append_right_inj preferred).mp hij)
    rw [Nat.succ_iterate, Nat.succ_iterate] at hij
    omega
  obtain ⟨n, hn⟩ := exists_firstFree usedNames hkeys
  refine ⟨preferred ++ toString n, fun rounds hrounds => ?_⟩
  rw [uniqueSuffix_eq_firstFree, hn rounds hrounds]
  rfl

theorem uniqueGeneratedName_spec (preferred : String) (usedNames : List String) :
    uniqueGeneratedName preferred usedNames ∉ usedNames ∧
      ∃ digits, (uniqueGeneratedName preferred usedNames).toList = preferred.toList ++ digits ∧
        ∀ c ∈ digits, c.isDigit = true := by
  unfold uniqueGeneratedName
  split
  case isTrue =>
    obtain ⟨name, hends⟩ := exists_uniqueSuffix preferred usedNames 2
    have hname := hends _ (Nat.lt_succ_self _)
    obtain ⟨hfree, n, hn⟩ := uniqueSuffix_eq_some hname
    rw [hname, Option.getD_some]
    refine ⟨hfree, (toString n).toList, by rw [hn, String.toList_append], ?_⟩
    intro c hc
    exact isDigit_of_mem_toString_nat hc
  case isFalse hfree => exact ⟨hfree, [], by simp, by simp⟩

theorem preferredName_spec (count index : Nat) (result : String) :
    ∃ base ∈ ["result", "err"], ∃ digits,
      (preferredName count index result).toList = base.toList ++ digits ∧
        ∀ c ∈ digits, c.isDigit = true := by
  unfold preferredName
  split
  · exact ⟨"err", by simp, [], by simp, by simp⟩
  split
  · exact ⟨"result", by simp, (toString index).toList, by rw [String.toList_append],
      fun c hc => isDigit_of_mem_toString_nat hc⟩
  · exact ⟨"result", by simp, [], by simp, by simp⟩

/-- The results have different names that nothing else has. -/
theorem nameResults_spec (count : Nat) (results : List (String × Nat))
    (usedNames : List String) :
    (nameResults count results usedNames).Nodup ∧
      ∀ name ∈ nameResults count results usedNames,
        name ∉ usedNames ∧ isResultName name = true := by
  induction results generalizing usedNames with
  | nil => simp [nameResults]
  | cons result results ih =>
      obtain ⟨result, index⟩ := result
      rw [nameResults]
      obtain ⟨base, hbase, digits, hpreferred, hdigits⟩ := preferredName_spec count index result
      obtain ⟨hfree, digits', hname, hdigits'⟩ :=
        uniqueGeneratedName_spec (preferredName count index result) usedNames
      generalize uniqueGeneratedName (preferredName count index result) usedNames = name at *
      obtain ⟨hnodup, hrest⟩ := ih (name :: usedNames)
      constructor
      · refine List.nodup_cons.mpr ⟨?_, hnodup⟩
        intro hmem
        exact (hrest name hmem).1 List.mem_cons_self
      · intro other hother
        rcases List.mem_cons.mp hother with rfl | hother
        · rw [hpreferred, List.append_assoc] at hname
          refine ⟨hfree, isResultName_append hbase hname ?_⟩
          intro c hc
          exact (List.mem_append.mp hc).elim (hdigits c) (hdigits' c)
        · have h := hrest other hother
          exact ⟨fun hmem => h.1 (List.mem_cons_of_mem _ hmem), h.2⟩

/-! ## Names of the templates -/

section Accepted

variable {ε : Type} [Unicode]

omit [Unicode] in
theorem resultTypes_error {query : Query} {ret : QueryValue} {opts : Options}
    {results : List String} (h : resultTypes (ε := ε) query ret opts = .ok results)
    (hcmd : query.cmd = cmdMany ∨ query.cmd = cmdExec ∨ query.cmd = cmdExecRows) :
    lastResultIsError results = true := by
  rcases hcmd with hcmd | hcmd | hcmd <;>
    simp only [resultTypes, hcmd, cmdMany, cmdExec, cmdExecRows] at h
  · cases h
    rfl
  · cases h
    rfl
  · cases h
    rfl

/-- The parameters of a query, and its mode, before they are wrapped. -/
theorem buildQuery_signature {g : Generator ε} {query : Query} {built : GeneratedQuery}
    (h : buildQuery g query = .ok built) :
    (∃ names, built.params.map Argument.name = "ctx" :: names) ∧
      built.storeParams = built.params ∧
      built.callArgs = built.params.map (fun param => .param param.name) ∧
      ((built.route = none ∧ (built.shardMode = .none ∨
          built.shardMode = .all ∧ lastResultIsError built.results = true)) ∨
        (∃ route, built.route = some route) ∧
          built.shardMode ∈ [.routed, .groupedCopy, .groupedMany]) := by
  obtain ⟨arg, -, h⟩ := bind_eq_ok.mp h
  obtain ⟨ret, -, h⟩ := bind_eq_ok.mp h
  obtain ⟨results, hresults, h⟩ := bind_eq_ok.mp h
  obtain ⟨⟨kind, ann, store⟩, -, h⟩ := bind_eq_ok.mp h
  cases ann with
  | none =>
      cases h
      exact ⟨⟨_, rfl⟩, rfl, rfl, .inl ⟨rfl, .inl rfl⟩⟩
  | some ann =>
      obtain ⟨⟨route, mode, spec⟩, hroute, h⟩ := bind_eq_ok.mp h
      cases h
      refine ⟨⟨_, rfl⟩, rfl, rfl, ?_⟩
      obtain ⟨rfl, rfl, hcmd⟩ | ⟨hsome, hmode, -⟩ := buildRoute_cases hroute
      · exact .inl ⟨rfl, .inr ⟨rfl, resultTypes_error hresults hcmd⟩⟩
      · exact .inr ⟨hsome, hmode⟩

theorem wrapArg_root {query : GeneratedQuery} {route : ShardRoute} {opts : Options}
    {wrapper : ShardArgWrapper} {callArgs : List CallArg}
    (h : wrapArg (ε := ε) query route opts = .ok (wrapper, callArgs)) :
    ∀ arg ∈ callArgs, arg.root = "arg" := by
  by_cases hempty : query.arg.isEmpty = true
  · rw [(wrapArg_empty hempty h).2]
    simp
  rw [Bool.not_eq_true] at hempty
  cases hstrct : query.arg.structType with
  | none =>
      obtain ⟨operand, -, -, rfl⟩ | ⟨-, -, rfl⟩ := wrapArg_scalar hempty hstrct h
      · simp [CallArg.root, defaultArgumentName]
      · simp [CallArg.root, defaultArgumentName]
  | some strct =>
      obtain ⟨-, -, hcall⟩ := wrapArg_struct hstrct h
      split at hcall
      · rw [hcall.2.1]
        simp [CallArg.root, defaultArgumentName]
      · rw [hcall]
        simp [CallArg.root, defaultArgumentName]

theorem wrapQuery_unrouted {query out : GeneratedQuery} {opts : Options}
    (h : wrapQuery (ε := ε) query opts = .ok out) (hroute : out.route = none) :
    query = out := by
  unfold wrapQuery at h
  split at h
  · cases h
    rfl
  case h_2 route spec hsome hmode hspec =>
    obtain ⟨_, _, _, _, -, hsame, -⟩ := wrapGroupedManyShardOperands_ok h
    rw [hroute, hsome] at hsame
    cases hsame
  case h_3 route hsome hother =>
    obtain ⟨_, hsame, -⟩ := wrapShardParameters_route h
    rw [hroute] at hsame
    cases hsame

/-- A routed query takes its structure `arg`, and reads everything from it. -/
theorem wrapQuery_signature {query out : GeneratedQuery} {opts : Options}
    (h : wrapQuery (ε := ε) query opts = .ok out) (hroute : out.route ≠ none)
    {names : List String} (hparams : query.params.map Argument.name = "ctx" :: names) :
    out.storeParams.map Argument.name = ["ctx", "arg"] ∧ out.shardMode = query.shardMode ∧
      (out.shardMode = .groupedMany ∨ ∀ arg ∈ out.callArgs.tail, arg.root = "arg") := by
  have hcontext : (contextParam query).name = "ctx" := by
    unfold contextParam
    cases hq : query.params with
    | nil => rfl
    | cons param params =>
        rw [hq] at hparams
        exact (List.cons.inj hparams).1
  obtain ⟨route, -, ⟨spec, hmode, -, hwrap⟩ | ⟨-, hwrap⟩⟩ := wrapQuery_ok h hroute
  · obtain ⟨⟨expression, w⟩, -, hwrap⟩ := bind_eq_ok.mp hwrap
    cases hwrap
    exact ⟨by simp [hcontext, defaultArgumentName], rfl, .inl hmode⟩
  · obtain ⟨⟨wrapper, callArgs⟩, harg, hwrap⟩ := bind_eq_ok.mp hwrap
    cases hwrap
    exact ⟨by simp [hcontext, defaultArgumentName], rfl, .inr (wrapArg_root harg)⟩

end Accepted

/-! ## Jobs by mode and by status -/

local instance jobsUnicode : Unicode := Unicode.ascii

end PgMesh.Plugin
