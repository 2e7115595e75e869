import PgMesh.Plugin.Files
import PgMesh.Plugin.StoreMethod
import PgMesh.Topology.Config

/-!
# Fresh names

The generator makes up the names of results and of group files: it tries
candidates until one is not used yet.  Both searches are loops without a bound;
here they are run for a number of rounds, and all large enough numbers give the
same names.
-/

namespace PgMesh.Plugin

open PgMesh.Foundation
open PgMesh.Topology (join)

/-! ## Named results -/

/-- `uniqueGeneratedName` with a bound on the rounds of its loop. -/
def searchGeneratedName (rounds : Nat) (usedNames : List String) (preferred : String) :
    Option String :=
  if preferred ∈ usedNames then uniqueSuffix preferred usedNames rounds 2 else some preferred

structure NamedResults where
  signature : String
  names : List String
  errName : String

def namedSignature (names results : List String) : String :=
  if results = [] then ""
  else " (" ++ join (List.zipWith (fun name result => name ++ " " ++ result) names results) ", " ++
    ")"

/-- All that `namedResultsSignature` returns, if each search ends within the rounds. -/
def searchNamedResults (rounds : Nat) (params : List Argument)
    (results reservedNames : List String) : Option NamedResults :=
  let preferred := results.zipIdx.map fun entry => preferredName results.length entry.2 entry.1
  (allocateAll id (searchGeneratedName rounds) (params.map Argument.name ++ reservedNames)
    preferred).map fun names =>
      { signature := namedSignature names results
        names
        errName := if lastResultIsError results then names.getLast?.getD "" else "" }

theorem searchGeneratedName_eq {rounds : Nat} {usedNames : List String}
    (h : usedNames.length < rounds) (preferred : String) :
    searchGeneratedName rounds usedNames preferred =
      some (uniqueGeneratedName preferred usedNames) := by
  rw [searchGeneratedName, uniqueGeneratedName]
  split
  · obtain ⟨name, hends⟩ := exists_uniqueSuffix preferred usedNames 2
    rw [hends rounds h, hends _ (Nat.lt_succ_self _)]
    rfl
  · rfl

theorem allocateAll_searchGeneratedName {rounds count : Nat} {entries : List (String × Nat)}
    {usedNames : List String} (h : usedNames.length + entries.length < rounds) :
    allocateAll id (searchGeneratedName rounds) usedNames
        (entries.map fun entry => preferredName count entry.2 entry.1) =
      some (nameResults count entries usedNames) := by
  induction entries generalizing usedNames with
  | nil => rfl
  | cons entry entries ih =>
      rw [List.length_cons] at h
      refine allocateAll_cons_eq_some.mpr
        ⟨_, _, searchGeneratedName_eq (by omega) _, ih ?_, rfl⟩
      rw [List.length_cons]
      omega

theorem length_nameResults (count : Nat) (entries : List (String × Nat))
    (usedNames : List String) : (nameResults count entries usedNames).length = entries.length := by
  induction entries generalizing usedNames with
  | nil => rfl
  | cons entry entries ih => rw [nameResults, List.length_cons, List.length_cons, ih]

theorem isResultName_ne_empty {name : String} (h : isResultName name = true) : name ≠ "" := by
  rintro rfl
  exact absurd h (by decide)

/-- The searches find the names of the model without bounds. -/
theorem searchNamedResults_eq {rounds : Nat} {params : List Argument}
    {results reservedNames : List String}
    (h : params.length + reservedNames.length + results.length < rounds) :
    searchNamedResults rounds params results reservedNames =
      some
        { signature :=
            namedSignature (namedResultsSignature params results reservedNames) results
          names := namedResultsSignature params results reservedNames
          errName :=
            if lastResultIsError results then
              (namedResultsSignature params results reservedNames).getLast?.getD ""
            else "" } := by
  rw [searchNamedResults, allocateAll_searchGeneratedName (by simpa using h)]
  rfl

/-- The error is named exactly when it is the last result. -/
theorem errName_iff {names results : List String} (hlength : names.length = results.length)
    (hnames : ∀ name ∈ names, name ≠ "") :
    names.getLast? =
        some (if lastResultIsError results then names.getLast?.getD "" else "") ↔
      lastResultIsError results = true := by
  cases hlast : names.getLast? with
  | none =>
      rw [List.getLast?_eq_none_iff] at hlast
      rw [hlast, List.length_nil, eq_comm, List.length_eq_zero_iff] at hlength
      simp [hlength, lastResultIsError]
  | some name =>
      have hname := hnames name (List.mem_of_getLast? hlast)
      by_cases herror : lastResultIsError results = true
      · simp [herror]
      · simp [herror, hname]

/-! ## Both searches -/

/--
Names of results and of group files are found, and they are fresh; file names are
compared in lower case.
-/
theorem fresh_names_are_found [UnicodeCase] :
    (∀ (params : List Argument) (results reservedNames : List String),
      ∃ named : NamedResults,
        (∃ bound, ∀ rounds, bound < rounds →
          searchNamedResults rounds params results reservedNames = some named) ∧
        named.names.length = results.length ∧ named.names.Nodup ∧
        (∀ name ∈ named.names, name ∉ params.map Argument.name ∧ name ∉ reservedNames) ∧
        (named.names.getLast? = some named.errName ↔ lastResultIsError results = true)) ∧
    ∀ (outputFileName : String) (groups : List String),
      ∃ names : List String,
        (∃ bound, ∀ rounds, bound < rounds →
          storeGroupOutputFileNames rounds outputFileName groups = some names) ∧
        names.length = groups.length ∧ (names.map toLower).Nodup ∧
        ∀ name ∈ names, toLower name ∉ (fixedFileNames outputFileName).map toLower := by
  constructor
  · intro params results reservedNames
    obtain ⟨hnodup, hfresh⟩ := nameResults_spec results.length results.zipIdx
      (params.map Argument.name ++ reservedNames)
    have hlength : (namedResultsSignature params results reservedNames).length =
        results.length := by
      rw [namedResultsSignature, length_nameResults, List.length_zipIdx]
    refine ⟨_, ⟨_, fun rounds => searchNamedResults_eq⟩, hlength, hnodup, ?_, ?_⟩
    · intro name hname
      have hunused := (hfresh name hname).1
      rw [List.mem_append, not_or] at hunused
      exact hunused
    · exact errName_iff hlength fun name hname => isResultName_ne_empty (hfresh name hname).2
  · intro outputFileName groups
    obtain ⟨names, hnames⟩ := exists_storeGroupOutputFileNames outputFileName groups
    have hrun := hnames _ (Nat.lt_succ_self _)
    obtain ⟨hnodup, hfresh⟩ := allocateAll_fresh
      (fun used group name h => (groupOutputFileName_eq_some h).1) hrun
    exact ⟨names, ⟨_, hnames⟩, length_allocateAll hrun, hnodup, hfresh⟩

end PgMesh.Plugin
