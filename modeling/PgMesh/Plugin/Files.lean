import PgMesh.Foundation.Retry
import PgMesh.Plugin.Classify
import PgMesh.Plugin.Options

/-!
# Names of the generated files

Every store group gets a file of its own, whose name is made of the configured
file name and the group's name in snake case.  The Go tool gives a meaning to
some file names: it leaves them out of the package, on all platforms or on some.
-/

namespace PgMesh.Plugin

open PgMesh.Foundation

/-! ## Words between underscores -/

theorem rtakeWhile_behind (front text : List Char) :
    (front ++ '_' :: text).rtakeWhile (· != '_') = text.rtakeWhile (· != '_') := by
  induction text using List.reverseRecOn with
  | nil => simp
  | append_singleton text c ih =>
      rw [← List.cons_append, ← List.append_assoc, List.rtakeWhile_concat,
        List.rtakeWhile_concat, ih]

theorem suffix_word_iff {word : List Char} (hword : '_' ∉ word) (front text : List Char) :
    '_' :: word <:+ front ++ '_' :: text ↔ text.rtakeWhile (· != '_') = word := by
  have hself : word.rtakeWhile (· != '_') = word := by
    rw [List.rtakeWhile_eq_self_iff]
    intro c hc
    simpa using fun heq : c = '_' => hword (heq ▸ hc)
  constructor
  · rintro ⟨before, hbefore⟩
    have hlast := congrArg (List.rtakeWhile (· != '_')) hbefore
    rw [rtakeWhile_behind, rtakeWhile_behind, hself] at hlast
    exact hlast.symm
  · intro hlast
    have happend := List.rdropWhile_append_rtakeWhile (p := (· != '_')) (l := text)
    rw [hlast] at happend
    rw [← happend]
    rcases List.eq_nil_or_concat (text.rdropWhile (· != '_')) with hnil | ⟨words, c, hwords⟩
    · rw [hnil]
      exact List.suffix_append _ _
    · have hne : text.rdropWhile (· != '_') ≠ [] := by simp [hwords]
      have hc := List.rdropWhile_last_not (· != '_') text hne
      simp only [hwords, List.concat_eq_append, List.getLast_append_singleton, bne_iff_ne, ne_eq,
        not_not] at hc
      refine ⟨front ++ '_' :: words, ?_⟩
      simp [hwords, hc]

theorem append_suffix_append_iff {front text tail : List Char} :
    front ++ tail <:+ text ++ tail ↔ front <:+ text := by
  constructor
  · rintro ⟨before, hbefore⟩
    rw [← List.append_assoc] at hbefore
    exact ⟨before, List.append_cancel_right hbefore⟩
  · rintro ⟨before, rfl⟩
    exact ⟨before, by rw [List.append_assoc]⟩

/-! ## File names -/

def derivedOutputFileName (outputFileName fileSection : String) : String :=
  trimSuffix outputFileName (extension outputFileName) ++ "_" ++ fileSection ++
    extension outputFileName

def fixedSections : List String := ["interfaces", "read", "write", "sharded"]

/-- The names that are taken before the first group gets one. -/
def fixedFileNames (outputFileName : String) : List String :=
  outputFileName :: fixedSections.map (derivedOutputFileName outputFileName)

def nextSection (fileSection : String) : String := "group_" ++ fileSection

theorem length_iterate_nextSection (i : Nat) (fileSection : String) :
    (nextSection^[i] fileSection).toList.length = 6 * i + fileSection.toList.length := by
  induction i generalizing fileSection with
  | zero => simp
  | succ i ih =>
      rw [Function.iterate_succ_apply, ih, nextSection, String.toList_append, List.length_append]
      simp only [String.reduceToList, List.length_cons, List.length_nil]
      omega

/-! ## File names that the Go tool reads -/

def knownOS : List String :=
  ["aix", "android", "darwin", "dragonfly", "freebsd", "hurd", "illumos", "ios", "js", "linux",
    "nacl", "netbsd", "openbsd", "plan9", "solaris", "wasip1", "windows", "zos"]

def knownArch : List String :=
  ["386", "amd64", "amd64p32", "arm", "armbe", "arm64", "arm64be", "loong64", "mips", "mipsle",
    "mips64", "mips64le", "mips64p32", "mips64p32le", "ppc", "ppc64", "ppc64le", "riscv",
    "riscv64", "s390", "s390x", "sparc", "sparc64", "wasm"]

/-- The file is no test, and its name is no implicit build constraint. -/
structure CompiledEverywhere (name : String) : Prop where
  not_test : hasSuffix name "_test.go" = false
  no_os : ∀ os ∈ knownOS, hasSuffix name ("_" ++ os ++ ".go") = false
  no_arch : ∀ arch ∈ knownArch, hasSuffix name ("_" ++ arch ++ ".go") = false
  no_os_arch : ∀ os ∈ knownOS, ∀ arch ∈ knownArch,
    hasSuffix name ("_" ++ os ++ "_" ++ arch ++ ".go") = false

/-- The part of a name behind its last underscore. -/
def lastWord (name : String) : String := String.ofList (name.toList.rtakeWhile (· != '_'))

/-- The last words of file names that the Go tool gives a meaning to. -/
def toolWords : List String := "test" :: (knownOS ++ knownArch)

theorem lastWord_nextSection (fileSection : String) :
    lastWord (nextSection fileSection) = lastWord fileSection := by
  rw [lastWord, nextSection, String.toList_append,
    show "group_".toList = "group".toList ++ ['_'] by rfl, List.append_assoc,
    List.singleton_append, rtakeWhile_behind]
  rfl

theorem lastWord_iterate_nextSection (i : Nat) (fileSection : String) :
    lastWord (nextSection^[i] fileSection) = lastWord fileSection := by
  induction i generalizing fileSection with
  | zero => rfl
  | succ i ih => rw [Function.iterate_succ_apply, ih, lastWord_nextSection]

theorem hasSuffix_derived_iff {outputFileName word : String}
    (hextension : extension outputFileName = ".go") (hword : '_' ∉ word.toList)
    (fileSection : String) :
    hasSuffix (derivedOutputFileName outputFileName fileSection) ("_" ++ word ++ ".go") = true ↔
      lastWord fileSection = word := by
  have hname : (derivedOutputFileName outputFileName fileSection).toList =
      ((trimSuffix outputFileName ".go").toList ++ '_' :: fileSection.toList) ++ ".go".toList := by
    simp [derivedOutputFileName, hextension]
  have htail : ("_" ++ word ++ ".go").toList = ('_' :: word.toList) ++ ".go".toList := by
    simp
  rw [hasSuffix_iff, hname, htail, append_suffix_append_iff, suffix_word_iff hword, lastWord,
    ← String.toList_inj, String.toList_ofList]

theorem toolWords_words : ∀ word ∈ toolWords, '_' ∉ word.toList :=
  forall_mem_of_all (by decide +kernel)

theorem compiledEverywhere_derived_iff {outputFileName : String}
    (hextension : extension outputFileName = ".go") (fileSection : String) :
    CompiledEverywhere (derivedOutputFileName outputFileName fileSection) ↔
      lastWord fileSection ∉ toolWords := by
  have hsuffix : ∀ word ∈ toolWords,
      hasSuffix (derivedOutputFileName outputFileName fileSection) ("_" ++ word ++ ".go") = false ↔
        lastWord fileSection ≠ word := by
    intro word hword
    rw [← Bool.not_eq_true, hasSuffix_derived_iff hextension (toolWords_words word hword)]
  have hos : ∀ os ∈ knownOS, os ∈ toolWords := fun os h => by simp [toolWords, h]
  have harch : ∀ arch ∈ knownArch, arch ∈ toolWords := fun arch h => by simp [toolWords, h]
  constructor
  · intro h hmem
    rcases List.mem_cons.mp hmem with htest | hmem'
    · exact (hsuffix "test" (by simp [toolWords])).mp h.not_test htest
    · rcases List.mem_append.mp hmem' with hword | hword
      · exact (hsuffix _ hmem).mp (h.no_os _ hword) rfl
      · exact (hsuffix _ hmem).mp (h.no_arch _ hword) rfl
  · intro h
    have hne : ∀ word ∈ toolWords, lastWord fileSection ≠ word :=
      fun word hword heq => h (heq ▸ hword)
    have harchitecture : ∀ arch ∈ knownArch,
        hasSuffix (derivedOutputFileName outputFileName fileSection) ("_" ++ arch ++ ".go") = false :=
      fun arch hmem => (hsuffix arch (harch arch hmem)).mpr (hne arch (harch arch hmem))
    refine ⟨(hsuffix "test" (by simp [toolWords])).mpr (hne _ (by simp [toolWords])),
      fun os hmem => (hsuffix os (hos os hmem)).mpr (hne os (hos os hmem)), harchitecture, ?_⟩
    -- such a name ends in the architecture, too
    intro os _ arch hmem
    rw [← Bool.not_eq_true, hasSuffix_iff]
    intro hboth
    have hshort := harchitecture arch hmem
    rw [← Bool.not_eq_true, hasSuffix_iff] at hshort
    refine hshort (List.IsSuffix.trans ?_ hboth)
    refine ⟨("_" ++ os).toList, ?_⟩
    simp [String.toList_append]

/-! ## The files of the groups -/

/-- The character tables, together with `unicode.IsLower`. -/
class UnicodeCase extends Unicode where
  isLower : Char → Bool

@[reducible] def UnicodeCase.ascii : UnicodeCase where
  toUnicode := Unicode.ascii
  isLower := Char.isLower

section Names

variable [UnicodeCase]

/-- A new word begins at the rune `current`. -/
def beginsWord (previous : Option Char) (current : Char) (next : Option Char) : Bool :=
  previous.any fun previous =>
    Unicode.isUpper current &&
      (UnicodeCase.isLower previous || Unicode.isDigit previous ||
        Unicode.isUpper previous && next.any UnicodeCase.isLower)

def snakeRunes : Option Char → List Char → List Char
  | _, [] => []
  | previous, current :: runes =>
      (if beginsWord previous current runes.head? then ['_'] else []) ++
        Unicode.toLower current :: snakeRunes (some current) runes

def snakeCaseIdentifier (name : String) : String := String.ofList (snakeRunes none name.toList)

def sectionKey (outputFileName fileSection : String) : String :=
  toLower (derivedOutputFileName outputFileName fileSection)

def groupOutputFileName (outputFileName : String) (rounds : Nat) (used : List String)
    (group : String) : Option String :=
  (firstFree nextSection (sectionKey outputFileName) used rounds
    (snakeCaseIdentifier group)).map (derivedOutputFileName outputFileName)

/-- The file names of the groups, if each search ends within the rounds. -/
def storeGroupOutputFileNames (rounds : Nat) (outputFileName : String) (groups : List String) :
    Option (List String) :=
  allocateAll toLower (groupOutputFileName outputFileName rounds)
    ((fixedFileNames outputFileName).map toLower) groups

/-! ## The searches end -/

theorem length_toLower (s : String) : (toLower s).toList.length = s.toList.length := by
  rw [toLower, String.toList_ofList, List.length_map]

/-- Every further candidate is longer than the ones before. -/
theorem sectionKeys_injective (outputFileName fileSection : String) :
    Function.Injective fun i => sectionKey outputFileName (nextSection^[i] fileSection) := by
  intro i j hij
  have hlength := congrArg (fun s => s.toList.length) hij
  simp only [sectionKey, length_toLower, derivedOutputFileName, String.toList_append,
    List.length_append, length_iterate_nextSection] at hlength
  omega

theorem exists_groupOutputFileName (outputFileName : String) (used : List String)
    (group : String) :
    ∃ name, ∀ rounds, used.length < rounds →
      groupOutputFileName outputFileName rounds used group = some name := by
  obtain ⟨fileSection, hsection⟩ := exists_firstFree used
    (sectionKeys_injective outputFileName (snakeCaseIdentifier group))
  refine ⟨derivedOutputFileName outputFileName fileSection, fun rounds hrounds => ?_⟩
  rw [groupOutputFileName, hsection rounds hrounds]
  rfl

theorem groupOutputFileName_eq_some {outputFileName : String} {rounds : Nat}
    {used : List String} {group name : String}
    (h : groupOutputFileName outputFileName rounds used group = some name) :
    toLower name ∉ used ∧
      ∃ i, name = derivedOutputFileName outputFileName
        (nextSection^[i] (snakeCaseIdentifier group)) := by
  obtain ⟨fileSection, hsection, rfl⟩ := Option.map_eq_some_iff.mp h
  obtain ⟨hfree, i, rfl⟩ := firstFree_eq_some hsection
  exact ⟨hfree, i, rfl⟩

theorem exists_storeGroupOutputFileNames (outputFileName : String) (groups : List String) :
    ∃ names, ∀ rounds, 5 + groups.length < rounds →
      storeGroupOutputFileNames rounds outputFileName groups = some names := by
  have hused : ((fixedFileNames outputFileName).map toLower).length = 5 := rfl
  rw [← hused]
  exact exists_allocateAll (exists_groupOutputFileName outputFileName) _ groups

/-! ## Files that are built -/

theorem validateOptions_extension {ε : Type} {opts : StoreOptions}
    (h : validateOptions (ε := ε) opts = .ok ()) : extension opts.outputFileName = ".go" := by
  obtain ⟨⟨⟩, hname, -⟩ := bind_eq_ok.mp h
  rw [validateOutputFileName] at hname
  split at hname
  case isTrue => cases hname
  case isFalse hvalid =>
    simp only [not_or, ne_eq, not_not] at hvalid
    exact hvalid.2.2.2.2.1

/-- The file of a group is built exactly when the last word of its name means nothing. -/
theorem groupOutputFileName_compiled_iff {outputFileName : String} {rounds : Nat}
    {used : List String} {group name : String} (hextension : extension outputFileName = ".go")
    (h : groupOutputFileName outputFileName rounds used group = some name) :
    CompiledEverywhere name ↔ lastWord (snakeCaseIdentifier group) ∉ toolWords := by
  obtain ⟨-, i, rfl⟩ := groupOutputFileName_eq_some h
  rw [compiledEverywhere_derived_iff hextension, lastWord_iterate_nextSection]

/--
All group files are part of the package on every platform exactly when no group's
name ends in a word that the Go tool gives a meaning to.
-/
theorem group_files_are_built_iff {ε : Type} {opts : StoreOptions}
    (h : validateOptions (ε := ε) opts = .ok ()) (groups : List String) :
    ∃ names, (∀ rounds, 5 + groups.length < rounds →
        storeGroupOutputFileNames rounds opts.outputFileName groups = some names) ∧
      ((∀ name ∈ names, CompiledEverywhere name) ↔
        ∀ group ∈ groups, lastWord (snakeCaseIdentifier group) ∉ toolWords) := by
  obtain ⟨names, hnames⟩ := exists_storeGroupOutputFileNames opts.outputFileName groups
  refine ⟨names, hnames, allocateAll_forall_iff ?_ (hnames _ (Nat.lt_succ_self _))⟩
  intro used group name hname
  exact groupOutputFileName_compiled_iff (validateOptions_extension h) hname

end Names

section Linux

local instance linuxUnicode : UnicodeCase := UnicodeCase.ascii

/-- The default options. -/
def linuxOptions : StoreOptions where
  queryParameterLimit := 1
  rename := []
  emitParamsStructPointers := false
  emitResultStructPointers := false
  internalImportPath := ""
  internalImportAlias := ""
  outputFileName := "store_querier.go"
  packageName := "db"
  exportSQLCTypes := false
  constructorName := "NewStore"
  storeInterfaceName := "Store"
  runtimeImportPath := "github.com/sundayfun/pgmesh"
  resolverInterfaceName := "ShardResolver"
  shardedConstructor := "Sharded"

theorem linuxOptions_accepted : validateOptions (ε := Unit) linuxOptions = .ok () := rfl

theorem group_files_are_built_iff_users :
    validateOptions (ε := Unit) linuxOptions = .ok () ∧
      ∃ names, (∀ rounds, 6 < rounds →
          storeGroupOutputFileNames rounds linuxOptions.outputFileName ["Users"] = some names) ∧
        ((∀ name ∈ names, CompiledEverywhere name) ↔
          ∀ group ∈ ["Users"], lastWord (snakeCaseIdentifier group) ∉ toolWords) :=
  ⟨linuxOptions_accepted, group_files_are_built_iff linuxOptions_accepted ["Users"]⟩

/-- The annotation `-- store: Linux` makes a file for Linux only. -/
theorem linux_group_is_not_built_everywhere :
    validateOptions (ε := Unit) linuxOptions = .ok () ∧
      ( parseStoreAnnotation (ε := Unit) "GetUser" "-- store: Linux").run =
        some (.ok "Linux") ∧
      storeGroupOutputFileNames 7 linuxOptions.outputFileName ["Linux"] =
        some ["store_querier_linux.go"] ∧
      ¬ CompiledEverywhere "store_querier_linux.go" := by
  refine ⟨linuxOptions_accepted, rfl, by decide +kernel, ?_⟩
  intro h
  exact absurd (h.no_os "linux" (by decide)) (by decide)

end Linux

end PgMesh.Plugin
