import PgMesh.Plugin.Annotation
import PgMesh.Plugin.Wrapper

/-!
# Classification of queries

The comments in front of a query say its kind, its route and its store.  Two
scanners read them: one the lines of the text, to see that the annotations
follow the name line without a gap, and one the list of comments, to see what
they say.  No annotation is dropped: a query is accepted when the annotations
stand in the required order, and the result is what they say.
-/

namespace PgMesh.Plugin

open PgMesh.Foundation
open PgMesh.Topology (isSpace)

def kindAnnotationPrefix : String := "kind:"

def storeAnnotationPrefix : String := "store:"

/-- The strings that `annotationPrefix` returns. -/
inductive AnnotationPrefix where
  | shard
  | store
  | none
  deriving DecidableEq

def QueryKind.text : QueryKind → String
  | .read => "read"
  | .write => "write"

/-! ## The scanners -/

section Scan

variable {ε : Type} [Unicode]

def annotationPrefix (comment : String) : AnnotationPrefix :=
  let lower := toLower (normalizeComment comment)
  if hasPrefix lower shardAnnotationPrefix then .shard
  else if hasPrefix lower storeAnnotationPrefix then .store
  else .none

def isNameLine (rawLine : String) : Bool :=
  hasPrefix (toLower (trimSpace rawLine)) "-- name:"

def isDashed (rawLine : String) : Bool := hasPrefix (trimSpace rawLine) "--"

def misplacedKind (queryName : String) : GoError ε :=
  .errorf "query %s kind annotation must immediately follow its sqlc name annotation"
    [.text queryName]

def misplacedShard (queryName : String) : GoError ε :=
  .errorf "query %s shard annotation must immediately follow its kind annotation"
    [.text queryName]

def misplacedStore (queryName : String) : GoError ε :=
  .errorf "query %s store annotation must immediately follow its kind or shard annotation"
    [.text queryName]

/-- The loop over what is left after the annotations. -/
def checkPrefixes (queryName : String) : List AnnotationPrefix → Except (GoError ε) Unit
  | [] => .ok ()
  | .shard :: _ => .error (misplacedShard queryName)
  | .store :: _ => .error (misplacedStore queryName)
  | .none :: rest => checkPrefixes queryName rest

def checkRest (queryName : String) (comments : List String) : Except (GoError ε) Unit :=
  checkPrefixes queryName (comments.map annotationPrefix)

/-- Step over the next line if it is the given annotation. -/
def skipAnnotation (expected : AnnotationPrefix) : List String → List String
  | [] => []
  | line :: lines =>
      if annotationPrefix line = expected && isDashed line then lines else line :: lines

def isKindLine (line : String) : Bool :=
  hasPrefix (toLower (normalizeComment line)) kindAnnotationPrefix && isDashed line

def validateRawAnnotationOrder (query : Query) : Except (GoError ε) Unit :=
  match (split query.text '\n').dropWhile (!isNameLine ·) with
  | [] => .ok ()
  | _ :: lines =>
      if lines.head?.any isKindLine then
        checkRest query.name ( skipAnnotation .store ( skipAnnotation .shard lines.tail))
      else .error (misplacedKind query.name)

/-- The loop of `queryComments` over the lines of the text. -/
def leadingComments : List String → List String
  | [] => []
  | rawLine :: lines =>
      let line := trimSpace rawLine
      if line = "" || hasPrefix (toLower line) "-- name:" then leadingComments lines
      else if hasPrefix line "--" then line :: leadingComments lines
      else []

def queryComments (query : Query) : List String :=
  if query.comments ≠ [] then query.comments
  else leadingComments (split query.text '\n')

def kindOfValue (queryName value : String) : Except (GoError ε) QueryKind :=
  if toLower value = QueryKind.read.text then .ok .read
  else if toLower value = QueryKind.write.text then .ok .write
  else .error (.errorf "query %s has invalid kind annotation %q; expected read or write"
    [.text queryName, .text value])

def missingKind (queryName : String) : GoError ε :=
  .errorf ("query %s first comment must be kind annotation; " ++
    "add -- kind: read or -- kind: write before other comments") [.text queryName]

def queryKindFromComment (queryName comment : String) :
    ExceptT (GoError ε) Option QueryKind :=
  let comment := normalizeComment comment
  if !hasPrefix (toLower comment) kindAnnotationPrefix then
    some (.error (missingKind queryName))
  else
    (slice comment.toList (byteLength kindAnnotationPrefix.toList)
      (byteLength comment.toList)).map
        fun rest => kindOfValue queryName (trimSpace (String.ofList rest))

def storeOfValue (queryName value : String) : Except (GoError ε) String :=
  if !validRouteIdentifier value || value ∈ goKeywords ||
      !value.toList.head?.any Unicode.isUpper then
    .error (.errorf ("query %s has invalid store annotation %q; " ++
      "expected an exported Go identifier") [.text queryName, .text value])
  else .ok value

def parseStoreAnnotation (queryName comment : String) :
    ExceptT (GoError ε) Option String :=
  let normalized := (normalizeComment comment).toList
  (slice normalized (byteLength storeAnnotationPrefix.toList) (byteLength normalized)).map
    fun rest => storeOfValue queryName (trimSpace (String.ofList rest))

/-- The optional shard annotation, and the comments after it. -/
def takeShard (queryName : String) :
    List String → ExceptT (GoError ε) Option (Option RouteAnnotation × List String)
  | [] => return (none, [])
  | comment :: comments =>
      if annotationPrefix comment = .shard then do
        let route ← ExceptT.mk ( parseShardAnnotation queryName comment)
        return (some route, comments)
      else return (none, comment :: comments)

/-- The optional store annotation, and the comments after it. -/
def takeStore (queryName : String) :
    List String → ExceptT (GoError ε) Option (String × List String)
  | [] => return ("", [])
  | comment :: comments =>
      if annotationPrefix comment = .store then do
        let store ← parseStoreAnnotation queryName comment
        return (store, comments)
      else return ("", comment :: comments)

/-- The part of `classifyQuery` after the check of the text. -/
def classifyComments (queryName : String) : List String →
    ExceptT (GoError ε) Option (QueryKind × Option RouteAnnotation × String)
  | [] =>
      throw (.errorf ("query %s is missing required kind annotation; " ++
        "add -- kind: read or -- kind: write immediately after -- name")
        [.text queryName])
  | first :: comments => do
      let kind ← queryKindFromComment queryName first
      let (route, comments) ← takeShard queryName comments
      let (store, comments) ← takeStore queryName comments
      ExceptT.mk (some (checkRest queryName comments))
      if store = "" then
        throw (.errorf ("query %s is missing required store annotation; " ++
          "add -- store: ExportedGroup immediately after its optional shard annotation")
          [.text queryName])
      else return (kind, route, store)

def classifyQuery (query : Query) :
    ExceptT (GoError ε) Option (QueryKind × Option RouteAnnotation × String) := do
  ExceptT.mk (some (validateRawAnnotationOrder query))
  classifyComments query.name (queryComments query)

end Scan

/-! ## What annotations say -/

section Specification

variable [Unicode]

/--
The lower case of a comment's text begins with the keyword.  With `kind:` this
is weaker than to be an annotation, since the Kelvin sign and the dotted capital
I have their lower case in ASCII.
-/
def BeginsWith (keyword comment : String) : Prop :=
  ∃ start rest, (normalizeComment comment).toList = start ++ rest ∧
    start.map Unicode.toLower = keyword.toList

/-- The comment begins with the keyword, and `value` holds of what follows it. -/
def Annotates (keyword comment : String) (value : List Char → Prop) : Prop :=
  ∃ start rest, (normalizeComment comment).toList = start ++ rest ∧
    Spells start keyword ∧ value rest

def KindAnnotation (comment : String) (kind : QueryKind) : Prop :=
  Annotates kindAnnotationPrefix comment fun rest =>
    toLower (trimSpace (String.ofList rest)) = kind.text

def ShardAnnotation (comment : String) (route : RouteAnnotation) : Prop :=
  Annotates shardAnnotationPrefix comment (ShardText route.name route.operands)

/-- An exported Go identifier. -/
structure StoreName (store : String) : Prop where
  valid : validRouteIdentifier store = true
  not_keyword : store ∉ goKeywords
  exported : ∃ c ∈ store.toList.head?, Unicode.isUpper c = true

def StoreAnnotation (comment store : String) : Prop :=
  StoreName store ∧
    Annotates storeAnnotationPrefix comment (Padded isSpace store.toList)

/-- A comment that is no routing annotation. -/
def Ordinary (comment : String) : Prop :=
  ¬ BeginsWith shardAnnotationPrefix comment ∧ ¬ BeginsWith storeAnnotationPrefix comment

/--
The comments are a kind annotation, an optional shard annotation, a store
annotation, and comments that are no routing annotations.
-/
def AnnotatedAs (comments : List String) (kind : QueryKind)
    (route : Option RouteAnnotation) (store : String) : Prop :=
  ∃ kindComment shardComments storeComment rest,
    comments = kindComment :: (shardComments ++ storeComment :: rest) ∧
    KindAnnotation kindComment kind ∧
    List.Forall₂ ShardAnnotation shardComments route.toList ∧
    StoreAnnotation storeComment store ∧ ∀ comment ∈ rest, Ordinary comment

/-- At most one line, a `--` comment that carries the keyword. -/
def OptionalLine (keyword : String) (lines : List String) : Prop :=
  lines.length ≤ 1 ∧ ∀ line ∈ lines, isDashed line = true ∧ BeginsWith keyword line

/--
After the first name line, if there is one, come a kind line, an optional shard
line and an optional store line, and then no routing annotation.
-/
def InOrder (lines : List String) : Prop :=
  (∀ line ∈ lines, isNameLine line = false) ∨
    ∃ before nameLine kindLine shard store rest,
      lines = before ++ nameLine :: kindLine :: (shard ++ (store ++ rest)) ∧
      (∀ line ∈ before, isNameLine line = false) ∧ isNameLine nameLine = true ∧
      isDashed kindLine = true ∧ BeginsWith kindAnnotationPrefix kindLine ∧
      OptionalLine shardAnnotationPrefix shard ∧ OptionalLine storeAnnotationPrefix store ∧
      ∀ line ∈ rest, Ordinary line

/-- Blank lines and name lines are no comments of a query. -/
def isSkipped (line : String) : Bool := line = "" || isNameLine line

/-- The `--` lines at the beginning of a text. -/
def leadingCommentLines (lines : List String) : List String :=
  ((lines.map trimSpace).takeWhile fun line => isSkipped line || hasPrefix line "--").filter
    (!isSkipped ·)

/-- The comments that classify a query. -/
def annotationComments (query : Query) : List String :=
  if query.comments = [] then leadingCommentLines (split query.text '\n')
  else query.comments

end Specification

/-! ## Keywords -/

section Keywords

variable [Unicode]

theorem hasPrefix_toLower_iff {keyword comment : String} :
    hasPrefix (toLower (normalizeComment comment)) keyword = true ↔
      BeginsWith keyword comment := by
  rw [hasPrefix_iff, toLower, String.toList_ofList, List.prefix_map_iff]
  constructor
  · rintro ⟨start, ⟨rest, hrest⟩, hstart⟩
    exact ⟨start, rest, hrest.symm, hstart.symm⟩
  · rintro ⟨start, rest, hrest, hstart⟩
    exact ⟨start, ⟨rest, hrest.symm⟩, hstart.symm⟩

/-- A comment carries one keyword of each length. -/
theorem BeginsWith.unique {keyword keyword' comment : String} (h : BeginsWith keyword comment)
    (h' : BeginsWith keyword' comment) (hlength : keyword.toList.length = keyword'.toList.length) :
    keyword = keyword' := by
  obtain ⟨start, rest, htext, hstart⟩ := h
  obtain ⟨start', rest', htext', hstart'⟩ := h'
  rw [← hstart, ← hstart', List.length_map, List.length_map] at hlength
  obtain ⟨rfl, -⟩ := List.append_inj (htext.symm.trans htext') hlength
  exact String.toList_inj.mp (hstart.symm.trans hstart')

theorem annotationPrefix_shard {comment : String} :
    annotationPrefix comment = .shard ↔ BeginsWith shardAnnotationPrefix comment := by
  rw [← hasPrefix_toLower_iff, annotationPrefix]
  split
  · simp [*]
  · split <;> simp [*]

theorem annotationPrefix_store {comment : String} :
    annotationPrefix comment = .store ↔ BeginsWith storeAnnotationPrefix comment := by
  have hexclusive : BeginsWith storeAnnotationPrefix comment →
      ¬ BeginsWith shardAnnotationPrefix comment := by
    intro hstore hshard
    have heq := hstore.unique hshard (by decide)
    exact absurd heq (by simp [storeAnnotationPrefix, shardAnnotationPrefix])
  rw [← hasPrefix_toLower_iff, ← hasPrefix_toLower_iff] at hexclusive
  rw [← hasPrefix_toLower_iff, annotationPrefix]
  split
  case isTrue hshard =>
    constructor
    · intro h
      cases h
    · intro hstore
      exact absurd hshard (hexclusive hstore)
  · split <;> simp [*]

theorem annotationPrefix_none {comment : String} :
    annotationPrefix comment = .none ↔ Ordinary comment := by
  rw [Ordinary, ← annotationPrefix_shard, ← annotationPrefix_store]
  cases annotationPrefix comment <;> simp

variable [Unicode.Lawful]

theorem toLower_cases {c x : Char} (h : Unicode.toLower c = x) (hx : x.toNat < 128) :
    (c.toNat < 128 ∧ c.toLower = x) ∨ (c = kelvinSign ∧ x = 'k') ∨ (c = dottedI ∧ x = 'i') := by
  by_cases hc : c.toNat < 128
  · rw [Unicode.Lawful.toLower_ascii c hc] at h
    exact .inl ⟨hc, h⟩
  · have hother := Unicode.Lawful.toLower_other c (by omega) (by rw [h]; exact hx)
    rw [h] at hother
    exact .inr hother

/-- A keyword without the letters `k` and `i` is spelled in ASCII. -/
theorem map_toLower_iff_spells {start : List Char} {keyword : String}
    (hascii : ∀ c ∈ keyword.toList, c.toNat < 128)
    (hletters : 'k' ∉ keyword.toList ∧ 'i' ∉ keyword.toList) :
    start.map Unicode.toLower = keyword.toList ↔ Spells start keyword := by
  constructor
  · intro h
    rw [Spells, ← h]
    apply List.map_congr_left
    intro c hc
    have hmem : Unicode.toLower c ∈ keyword.toList := h ▸ List.mem_map_of_mem hc
    obtain ⟨-, heq⟩ | ⟨-, hk⟩ | ⟨-, hi⟩ := toLower_cases rfl (hascii _ hmem)
    · exact heq
    · exact absurd (hk ▸ hmem) hletters.1
    · exact absurd (hi ▸ hmem) hletters.2
  · intro h
    rw [← (h : start.map Char.toLower = keyword.toList)]
    apply List.map_congr_left
    intro c hc
    exact Unicode.Lawful.toLower_ascii c (h.ascii hascii c hc)

theorem beginsWith_shard_iff {comment : String} :
    BeginsWith shardAnnotationPrefix comment ↔
      ∃ start rest, (normalizeComment comment).toList = start ++ rest ∧
        Spells start shardAnnotationPrefix := by
  simp only [BeginsWith, map_toLower_iff_spells shardAnnotationPrefix_ascii (by decide)]

omit [Unicode] [Unicode.Lawful] in
theorem storeAnnotationPrefix_ascii : ∀ c ∈ storeAnnotationPrefix.toList, c.toNat < 128 :=
  forall_mem_of_all (by decide)

theorem beginsWith_store_iff {comment : String} :
    BeginsWith storeAnnotationPrefix comment ↔
      ∃ start rest, (normalizeComment comment).toList = start ++ rest ∧
        Spells start storeAnnotationPrefix := by
  simp only [BeginsWith, map_toLower_iff_spells storeAnnotationPrefix_ascii (by decide)]

end Keywords

/-! ## The lines of the text -/

section Lines

variable {ε : Type} [Unicode]

omit [Unicode] in
theorem checkPrefixes_ok_iff {queryName : String} {prefixes : List AnnotationPrefix} :
    checkPrefixes (ε := ε) queryName prefixes = .ok () ↔ ∀ found ∈ prefixes, found = .none := by
  induction prefixes with
  | nil => simp [checkPrefixes]
  | cons found prefixes ih => cases found <;> simp [checkPrefixes, ih]

theorem checkRest_ok_iff {queryName : String} {comments : List String} :
    checkRest (ε := ε) queryName comments = .ok () ↔
      ∀ comment ∈ comments, Ordinary comment := by
  simp only [checkRest, checkPrefixes_ok_iff, List.forall_mem_map, annotationPrefix_none]

/-- What is skipped is an optional line. -/
theorem skipAnnotation_cases {expected : AnnotationPrefix} {keyword : String}
    (hexpected : ∀ line, annotationPrefix line = expected ↔ BeginsWith keyword line)
    (lines : List String) :
    ∃ skipped, lines = skipped ++ skipAnnotation expected lines ∧
      OptionalLine keyword skipped := by
  cases lines with
  | nil => exact ⟨[], rfl, by simp [OptionalLine]⟩
  | cons line lines =>
      rw [ skipAnnotation]
      split
      case isTrue hline =>
        simp only [Bool.and_eq_true, decide_eq_true_eq, hexpected] at hline
        exact ⟨[line], rfl, by simp [OptionalLine, hline]⟩
      case isFalse => exact ⟨[], rfl, by simp [OptionalLine]⟩

theorem OptionalLine.cases {keyword : String} {lines : List String}
    (h : OptionalLine keyword lines) :
    lines = [] ∨ ∃ line, lines = [line] ∧ isDashed line = true ∧ BeginsWith keyword line := by
  cases lines with
  | nil => exact .inl rfl
  | cons line lines =>
      have hlines : lines = [] := by simpa [OptionalLine] using h.1
      rw [hlines] at h ⊢
      exact .inr ⟨line, rfl, h.2 line List.mem_cons_self⟩

theorem skipAnnotation_append {expected : AnnotationPrefix} {keyword : String}
    (hexpected : ∀ line, annotationPrefix line = expected ↔ BeginsWith keyword line)
    {skipped rest : List String} (hskipped : OptionalLine keyword skipped)
    (hrest : ∀ line ∈ rest.head?, ¬ BeginsWith keyword line) :
    skipAnnotation expected (skipped ++ rest) = rest := by
  obtain rfl | ⟨line, rfl, hdashed, hline⟩ := hskipped.cases
  · cases rest with
    | nil => rfl
    | cons line rest =>
        have hline : annotationPrefix line ≠ expected := by
          rw [ne_eq, hexpected]
          exact hrest line rfl
        simp [ skipAnnotation, hline]
  · simp [ skipAnnotation, (hexpected line).mpr hline, hdashed]

/-- The two steps over annotations leave only ordinary lines. -/
theorem ordinary_after_skip_iff {lines : List String} :
    (∀ line ∈ skipAnnotation .store ( skipAnnotation .shard lines), Ordinary line) ↔
      ∃ shard store rest, lines = shard ++ (store ++ rest) ∧
        OptionalLine shardAnnotationPrefix shard ∧
        OptionalLine storeAnnotationPrefix store ∧ ∀ line ∈ rest, Ordinary line := by
  have hshard := fun line => @annotationPrefix_shard _ line
  have hstore := fun line => @annotationPrefix_store _ line
  constructor
  · intro hrest
    obtain ⟨shard, hlines, hshards⟩ := skipAnnotation_cases hshard lines
    obtain ⟨store, hlines', hstores⟩ :=
      skipAnnotation_cases hstore ( skipAnnotation .shard lines)
    refine ⟨shard, store, _, ?_, hshards, hstores, hrest⟩
    rw [← hlines', ← hlines]
  · rintro ⟨shard, store, rest, rfl, hshards, hstores, hrest⟩
    have hhead : ∀ line ∈ (store ++ rest).head?, ¬ BeginsWith shardAnnotationPrefix line := by
      intro line hline
      obtain rfl | ⟨first, rfl, -, hfirst⟩ := hstores.cases
      · exact (hrest line (List.mem_of_head? hline)).1
      · cases hline
        rw [← hstore] at hfirst
        rw [← hshard, hfirst]
        simp
    rw [skipAnnotation_append hshard hshards hhead, skipAnnotation_append hstore hstores]
    · exact hrest
    · intro line hline
      exact (hrest line (List.mem_of_head? hline)).2

theorem isKindLine_iff {line : String} :
    isKindLine line = true ↔ isDashed line = true ∧ BeginsWith kindAnnotationPrefix line := by
  rw [isKindLine, Bool.and_eq_true, hasPrefix_toLower_iff, and_comm]

/-- What has to follow the first name line. -/
theorem inOrder_iff {before rest : List String} {nameLine : String}
    (hbefore : ∀ line ∈ before, isNameLine line = false) (hname : isNameLine nameLine = true) :
    InOrder (before ++ nameLine :: rest) ↔
      ∃ kindLine tail, rest = kindLine :: tail ∧ isKindLine kindLine = true ∧
        ∀ line ∈ skipAnnotation .store ( skipAnnotation .shard tail), Ordinary line := by
  constructor
  · rintro (hnone | ⟨before', nameLine', kindLine, shard, store, rest', heq, hbefore', hname',
      hdashed, hkind, hshard, hstore, hrest⟩)
    · rw [hnone nameLine (by simp)] at hname
      cases hname
    · obtain ⟨-, -, rfl⟩ := (append_first_inj (p := (isNameLine · = true))
        (fun line h => by simp [hbefore line h]) (fun line h => by simp [hbefore' line h])
        hname hname').mp heq
      exact ⟨kindLine, _, rfl, isKindLine_iff.mpr ⟨hdashed, hkind⟩,
        ordinary_after_skip_iff.mpr ⟨shard, store, rest', rfl, hshard, hstore, hrest⟩⟩
  · rintro ⟨kindLine, tail, rfl, hkind, htail⟩
    obtain ⟨shard, store, rest', rfl, hshard, hstore, hrest⟩ := ordinary_after_skip_iff.mp htail
    obtain ⟨hdashed, hkind⟩ := isKindLine_iff.mp hkind
    exact .inr ⟨before, nameLine, kindLine, shard, store, rest', rfl, hbefore, hname, hdashed,
      hkind, hshard, hstore, hrest⟩

theorem validateRawAnnotationOrder_ok_iff {query : Query} :
    validateRawAnnotationOrder (ε := ε) query = .ok () ↔ InOrder (split query.text '\n') := by
  rw [validateRawAnnotationOrder]
  generalize split query.text '\n' = lines
  have hbefore : ∀ line ∈ lines.takeWhile (!isNameLine ·), isNameLine line = false := by
    intro line hline
    simpa using List.mem_takeWhile_imp hline
  have hlines := List.takeWhile_append_dropWhile (p := (!isNameLine ·)) (l := lines)
  cases hdrop : lines.dropWhile (!isNameLine ·) with
  | nil =>
      rw [hdrop, List.append_nil] at hlines
      rw [hlines] at hbefore
      exact iff_of_true rfl (.inl hbefore)
  | cons nameLine rest =>
      have hname : isNameLine nameLine = true := by
        have hhead := List.head?_dropWhile_not (!isNameLine ·) lines
        rw [hdrop] at hhead
        simpa using hhead
      rw [hdrop] at hlines
      rw [← hlines, inOrder_iff hbefore hname]
      cases rest with
      | nil => simp
      | cons kindLine tail =>
          simp only [List.head?_cons, Option.any_some, List.tail_cons]
          by_cases hkind : isKindLine kindLine = true
          · simp [hkind, checkRest_ok_iff]
          · simp [hkind]

end Lines

/-! ## The list of comments -/

theorem trimSpace_trimSpace (s : String) : trimSpace (trimSpace s) = trimSpace s := by
  rw [trimSpace, toList_trimSpace, (trimmed_trim s.toList).trim_eq, trimSpace]

section Comments

variable {ε : Type} [Unicode]

theorem leadingComments_eq (lines : List String) :
    leadingComments lines = leadingCommentLines lines := by
  induction lines with
  | nil => rfl
  | cons rawLine lines ih =>
      have hskipped : (decide (trimSpace rawLine = "") ||
          hasPrefix (toLower (trimSpace rawLine)) "-- name:") =
          isSkipped (trimSpace rawLine) := by
        rw [isSkipped, isNameLine, trimSpace_trimSpace]
      simp only [leadingComments, leadingCommentLines, hskipped, List.map_cons,
        List.takeWhile_cons] at ih ⊢
      by_cases hskip : isSkipped (trimSpace rawLine) = true
      · simp [hskip, ih]
      · by_cases hdashed : hasPrefix (trimSpace rawLine) "--" = true
        · simp [hskip, hdashed, ih]
        · simp [hskip, hdashed]

theorem queryComments_eq (query : Query) : queryComments query = annotationComments query := by
  rw [queryComments, annotationComments, leadingComments_eq]
  by_cases h : query.comments = []
  · rw [if_neg (not_not.mpr h), if_pos h]
  · rw [if_pos h, if_neg h]

theorem kindOfValue_ok_iff {queryName value : String} {kind : QueryKind} :
    kindOfValue (ε := ε) queryName value = .ok kind ↔ toLower value = kind.text := by
  unfold kindOfValue
  split
  case isTrue hread => cases kind <;> simp [hread, QueryKind.text]
  split
  case isTrue hwrite => cases kind <;> simp [hwrite, QueryKind.text]
  case isFalse.isFalse hread hwrite => cases kind <;> simp [hread, hwrite]

theorem storeOfValue_ok_iff {queryName value store : String} :
    storeOfValue (ε := ε) queryName value = .ok store ↔ value = store ∧ StoreName store := by
  have hupper : value.toList.head?.any Unicode.isUpper = true ↔
      ∃ c ∈ value.toList.head?, Unicode.isUpper c = true :=
    Option.any_eq_true _ _
  unfold storeOfValue
  split
  case isTrue h =>
    constructor
    · intro herror
      cases herror
    · rintro ⟨rfl, hvalid, hkeyword, hexported⟩
      simp [hvalid, hkeyword, hupper.mpr hexported] at h
  case isFalse h =>
    simp only [Bool.or_eq_true, Bool.not_eq_true', decide_eq_true_eq, not_or,
      Bool.not_eq_false, hupper] at h
    rw [Except.ok.injEq, iff_self_and]
    rintro rfl
    exact ⟨h.1.1, h.1.2, h.2⟩

variable [Unicode.Lawful]

omit [Unicode] [Unicode.Lawful] in
theorem kindAnnotationPrefix_ascii : ∀ c ∈ kindAnnotationPrefix.toList, c.toNat < 128 :=
  forall_mem_of_all (by decide)

omit [Unicode] [Unicode.Lawful] in
theorem slice_at {start rest : List Char} {n : Nat} (hn : n = byteLength start) :
    slice (start ++ rest) n (byteLength (start ++ rest)) = some rest := by
  rw [hn, slice_drop]

/--
A text whose lower case begins with `kind:` is spelled so, or its first five
bytes end before the colon.
-/
theorem kind_slice {start : List Char} (rest : List Char)
    (hstart : start.map Unicode.toLower = kindAnnotationPrefix.toList)
    (hspells : ¬ Spells start kindAnnotationPrefix) :
    ∃ c more, slice (start ++ rest) (byteLength kindAnnotationPrefix.toList)
        (byteLength (start ++ rest)) = some (c :: more) ∧
      isSpace c = false ∧ Unicode.toLower c ∈ ['n', 'd', ':'] := by
  have hfive : byteLength kindAnnotationPrefix.toList = 5 := by decide
  have hkeyword : kindAnnotationPrefix.toList = ['k', 'i', 'n', 'd', ':'] := rfl
  rw [hkeyword] at hstart
  obtain ⟨k, start, rfl, hk, hstart⟩ := List.map_eq_cons_iff.mp hstart
  obtain ⟨i, start, rfl, hi, hstart⟩ := List.map_eq_cons_iff.mp hstart
  obtain ⟨n, start, rfl, hn, hstart⟩ := List.map_eq_cons_iff.mp hstart
  obtain ⟨d, start, rfl, hd, hstart⟩ := List.map_eq_cons_iff.mp hstart
  obtain ⟨colon, start, rfl, hcolon, hstart⟩ := List.map_eq_cons_iff.mp hstart
  obtain rfl := List.map_eq_nil_iff.mp hstart
  have hplain : ∀ {c x : Char}, Unicode.toLower c = x → x.toNat < 128 → x ≠ 'k' → x ≠ 'i' →
      c.toNat < 128 ∧ c.toLower = x := by
    intro c x h hx hxk hxi
    obtain hascii | ⟨-, hk⟩ | ⟨-, hi⟩ := toLower_cases h hx
    · exact hascii
    · exact absurd hk hxk
    · exact absurd hi hxi
  have hn' := hplain hn (by decide) (by decide) (by decide)
  have hd' := hplain hd (by decide) (by decide) (by decide)
  have hcolon' := hplain hcolon (by decide) (by decide) (by decide)
  have hsize : ∀ {c x : Char}, c.toNat < 128 ∧ c.toLower = x → c.utf8Size = 1 :=
    fun h => utf8Size_ascii h.1
  have hspace : ∀ {c x : Char}, c.toNat < 128 ∧ c.toLower = x → isSpace x = false →
      isSpace c = false := fun h hx => by rw [← isSpace_toLower, h.2, hx]
  have hkelvin : kelvinSign.utf8Size = 3 := by decide
  have hdotted : dottedI.utf8Size = 2 := by decide
  obtain hk' | ⟨rfl, -⟩ | ⟨-, hfalse⟩ := toLower_cases hk (by decide)
  · obtain hi' | ⟨-, hfalse⟩ | ⟨rfl, -⟩ := toLower_cases hi (by decide)
    · refine absurd ?_ hspells
      simp [Spells, hkeyword, hk'.2, hi'.2, hn'.2, hd'.2, hcolon'.2]
    · cases hfalse
    · have hbytes : 5 = byteLength [k, dottedI, n, d] := by
        simp [byteLength, hsize hk', hdotted, hsize hn', hsize hd']
      exact ⟨colon, rest, slice_at hbytes, hspace hcolon' (by decide), by simp [hcolon]⟩
  · obtain hi' | ⟨-, hfalse⟩ | ⟨rfl, -⟩ := toLower_cases hi (by decide)
    · have hbytes : 5 = byteLength [kelvinSign, i, n] := by
        simp [byteLength, hkelvin, hsize hi', hsize hn']
      exact ⟨d, colon :: rest, slice_at hbytes, hspace hd' (by decide), by simp [hd]⟩
    · cases hfalse
    · have hbytes : 5 = byteLength [kelvinSign, dottedI] := by
        simp [byteLength, hkelvin, hdotted]
      exact ⟨n, d :: colon :: rest, slice_at hbytes, hspace hn' (by decide), by simp [hn]⟩
  · cases hfalse

omit [Unicode] [Unicode.Lawful] in
theorem annotates_iff {keyword comment : String} {value : List Char → Prop}
    {start rest : List Char} (htext : (normalizeComment comment).toList = start ++ rest)
    (hlength : start.length = keyword.toList.length) :
    Annotates keyword comment value ↔ Spells start keyword ∧ value rest := by
  constructor
  · rintro ⟨start', rest', htext', hstart', hvalue⟩
    have hlength' : start.length = start'.length := by
      rw [hlength, ← (hstart' : start'.map Char.toLower = keyword.toList), List.length_map]
    obtain ⟨rfl, rfl⟩ := List.append_inj (htext.symm.trans htext') hlength'
    exact ⟨hstart', hvalue⟩
  · rintro ⟨hstart, hvalue⟩
    exact ⟨start, rest, htext, hstart, hvalue⟩

theorem Annotates.beginsWith {keyword comment : String} {value : List Char → Prop}
    (h : Annotates keyword comment value)
    (hascii : ∀ c ∈ keyword.toList, c.toNat < 128) : BeginsWith keyword comment := by
  obtain ⟨start, rest, htext, hstart, -⟩ := h
  refine ⟨start, rest, htext, ?_⟩
  rw [← (hstart : start.map Char.toLower = keyword.toList)]
  apply List.map_congr_left
  intro c hc
  exact Unicode.Lawful.toLower_ascii c (hstart.ascii hascii c hc)

omit [Unicode.Lawful] in
theorem queryKindFromComment_run {queryName comment : String} {start rest : List Char}
    (htext : (normalizeComment comment).toList = start ++ rest)
    (hstart : start.map Unicode.toLower = kindAnnotationPrefix.toList) :
    (queryKindFromComment (ε := ε) queryName comment).run =
      (slice (start ++ rest) (byteLength kindAnnotationPrefix.toList)
        (byteLength (start ++ rest))).map
          fun rest => kindOfValue queryName (trimSpace (String.ofList rest)) := by
  have hprefix := hasPrefix_toLower_iff.mpr ⟨start, rest, htext, hstart⟩
  rw [queryKindFromComment, hprefix, htext]
  exact if_neg (by simp)

omit [Unicode.Lawful] in
theorem queryKindFromComment_run_error {queryName comment : String}
    (h : ¬ BeginsWith kindAnnotationPrefix comment) :
    (queryKindFromComment (ε := ε) queryName comment).run =
      some (.error (missingKind queryName)) := by
  rw [← hasPrefix_toLower_iff, Bool.not_eq_true] at h
  rw [queryKindFromComment, h]
  exact if_pos (by simp)

omit [Unicode.Lawful] in
/-- A value that is sliced out of the keyword is no kind. -/
theorem kind_ne_of_head {c : Char} (more : List Char) (hspace : isSpace c = false)
    (hletter : Unicode.toLower c ∈ ['n', 'd', ':']) (kind : QueryKind) :
    toLower (trimSpace (String.ofList (c :: more))) ≠ kind.text := by
  obtain ⟨tail, htail⟩ := trim_cons hspace more
  rw [ne_eq, ← String.toList_inj, toLower, String.toList_ofList, toList_trimSpace,
    String.toList_ofList, htail, List.map_cons]
  intro heq
  have hhead : some (Unicode.toLower c) = kind.text.toList.head? := by
    rw [← heq, List.head?_cons]
  have hkind : kind.text.toList.head? = some 'r' ∨ kind.text.toList.head? = some 'w' := by
    cases kind <;> decide
  rw [← hhead, Option.some.injEq, Option.some.injEq] at hkind
  rcases hkind with h | h <;> rw [h] at hletter <;> revert hletter <;> decide

/-- The kind that is read is the one that is written, and reading it does not panic. -/
theorem queryKindFromComment_spec (queryName comment : String) :
    (queryKindFromComment (ε := ε) queryName comment).run ≠ none ∧
      ∀ kind, (queryKindFromComment (ε := ε) queryName comment).run = some (.ok kind) ↔
        KindAnnotation comment kind := by
  by_cases hbegins : BeginsWith kindAnnotationPrefix comment
  · obtain ⟨start, rest, htext, hstart⟩ := hbegins
    have hlength : start.length = kindAnnotationPrefix.toList.length := by
      rw [← hstart, List.length_map]
    rw [queryKindFromComment_run htext hstart]
    simp only [ KindAnnotation, annotates_iff htext hlength]
    by_cases hspells : Spells start kindAnnotationPrefix
    · rw [slice_at (hspells.byteLength_eq kindAnnotationPrefix_ascii).symm]
      simp [hspells, kindOfValue_ok_iff]
    · obtain ⟨c, more, hslice, hspace, hletter⟩ := kind_slice rest hstart hspells
      rw [hslice, Option.map_some]
      refine ⟨by simp, ?_⟩
      intro kind
      rw [Option.some.injEq, kindOfValue_ok_iff]
      exact iff_of_false (kind_ne_of_head more hspace hletter kind) fun h => hspells h.1
  · rw [queryKindFromComment_run_error hbegins]
    refine ⟨by simp, ?_⟩
    intro kind
    constructor
    · intro h
      cases h
    · intro h
      exact absurd (h.beginsWith kindAnnotationPrefix_ascii) hbegins

theorem parseStoreAnnotation_spec {queryName comment : String}
    (hbegins : BeginsWith storeAnnotationPrefix comment) :
    ( parseStoreAnnotation (ε := ε) queryName comment).run ≠ none ∧
      ∀ store, ( parseStoreAnnotation (ε := ε) queryName comment).run = some (.ok store) ↔
        StoreAnnotation comment store := by
  obtain ⟨start, rest, htext, hstart⟩ := beginsWith_store_iff.mp hbegins
  have hlength : start.length = storeAnnotationPrefix.toList.length := by
    rw [← (hstart : start.map Char.toLower = storeAnnotationPrefix.toList), List.length_map]
  have hrun : ( parseStoreAnnotation (ε := ε) queryName comment).run =
      some (storeOfValue queryName (trimSpace (String.ofList rest))) := by
    rw [ parseStoreAnnotation, htext,
      slice_at (hstart.byteLength_eq storeAnnotationPrefix_ascii).symm, ExceptT.run,
      Option.map_some]
  rw [hrun]
  refine ⟨by simp, ?_⟩
  intro store
  rw [Option.some.injEq, storeOfValue_ok_iff, StoreAnnotation, annotates_iff htext hlength]
  constructor
  · rintro ⟨hvalue, hname⟩
    exact ⟨hname, hstart, (trimSpace_eq_iff hname.valid).mp hvalue⟩
  · rintro ⟨hname, -, hpadded⟩
    exact ⟨(trimSpace_eq_iff hname.valid).mpr hpadded, hname⟩

theorem parseShardAnnotation_spec {queryName comment : String}
    (hbegins : BeginsWith shardAnnotationPrefix comment) :
    parseShardAnnotation (ε := ε) queryName comment ≠ none ∧
      ∀ route, parseShardAnnotation (ε := ε) queryName comment = some (.ok route) ↔
        ShardAnnotation comment route := by
  obtain ⟨start, rest, htext, hstart⟩ := beginsWith_shard_iff.mp hbegins
  have hlength : start.length = shardAnnotationPrefix.toList.length := by
    rw [← (hstart : start.map Char.toLower = shardAnnotationPrefix.toList), List.length_map]
  constructor
  · rw [parseShardAnnotation_eq htext hstart, ← Option.isSome_iff_ne_none]
    exact parseShardValue_isSome queryName _
  · intro route
    rw [ ShardAnnotation, annotates_iff htext hlength, and_iff_right hstart]
    exact parseShardAnnotation_ok_iff htext hstart

theorem takeShard_spec (queryName : String) (comments : List String) :
    (takeShard (ε := ε) queryName comments).run ≠ none ∧
      ∀ route rest, (takeShard (ε := ε) queryName comments).run = some (.ok (route, rest)) →
        ∃ shardComments, comments = shardComments ++ rest ∧
          List.Forall₂ ShardAnnotation shardComments route.toList := by
  cases comments with
  | nil =>
      refine ⟨by simp [takeShard], ?_⟩
      intro route rest h
      cases h
      exact ⟨[], rfl, .nil⟩
  | cons comment comments =>
      rw [takeShard]
      split
      case isTrue hshard =>
        have hspec := @parseShardAnnotation_spec ε _ _ queryName comment
          (annotationPrefix_shard.mp hshard)
        refine ⟨exceptT_bind_ne_none hspec.1 (by simp), ?_⟩
        intro route rest h
        obtain ⟨ann, hann, h⟩ := exceptT_bind_eq_ok.mp h
        cases h
        exact ⟨[comment], rfl, .cons ((hspec.2 ann).mp hann) .nil⟩
      case isFalse =>
        refine ⟨by simp, ?_⟩
        intro route rest h
        cases h
        exact ⟨[], rfl, .nil⟩

theorem takeStore_spec (queryName : String) (comments : List String) :
    (takeStore (ε := ε) queryName comments).run ≠ none ∧
      ∀ store rest, (takeStore (ε := ε) queryName comments).run = some (.ok (store, rest)) →
        store = "" ∨ ∃ comment, comments = comment :: rest ∧ StoreAnnotation comment store := by
  cases comments with
  | nil =>
      refine ⟨by simp [takeStore], ?_⟩
      intro store rest h
      cases h
      exact .inl rfl
  | cons comment comments =>
      rw [takeStore]
      split
      case isTrue hstore =>
        have hspec := @parseStoreAnnotation_spec ε _ _ queryName comment
          (annotationPrefix_store.mp hstore)
        refine ⟨exceptT_bind_ne_none hspec.1 (by simp), ?_⟩
        intro store rest h
        obtain ⟨value, hvalue, h⟩ := exceptT_bind_eq_ok.mp h
        cases h
        exact .inr ⟨comment, rfl, (hspec.2 store).mp hvalue⟩
      case isFalse =>
        refine ⟨by simp, ?_⟩
        intro store rest h
        cases h
        exact .inl rfl

theorem takeShard_of_annotated {queryName : String} {shardComments comments : List String}
    {route : Option RouteAnnotation}
    (hshard : List.Forall₂ ShardAnnotation shardComments route.toList)
    (hrest : ∀ comment ∈ comments.head?, ¬ BeginsWith shardAnnotationPrefix comment) :
    (takeShard (ε := ε) queryName (shardComments ++ comments)).run =
      some (.ok (route, comments)) := by
  cases route with
  | none =>
      cases hshard
      cases comments with
      | nil => rfl
      | cons comment comments =>
          have hcomment : annotationPrefix comment ≠ .shard := by
            rw [ne_eq, annotationPrefix_shard]
            exact hrest comment rfl
          rw [List.nil_append, takeShard, if_neg hcomment]
          rfl
  | some ann =>
      obtain ⟨comment, rfl, hann⟩ : ∃ comment, shardComments = [comment] ∧
          ShardAnnotation comment ann := by
        cases hshard with
        | cons hann hnil =>
            cases hnil
            exact ⟨_, rfl, hann⟩
      have hbegins : BeginsWith shardAnnotationPrefix comment :=
        hann.beginsWith shardAnnotationPrefix_ascii
      rw [List.singleton_append, takeShard, if_pos (annotationPrefix_shard.mpr hbegins),
        exceptT_bind_eq_ok]
      exact ⟨ann, ((parseShardAnnotation_spec hbegins).2 ann).mpr hann, rfl⟩

theorem takeStore_of_annotated {queryName comment store : String} {comments : List String}
    (hstore : StoreAnnotation comment store) :
    (takeStore (ε := ε) queryName (comment :: comments)).run =
      some (.ok (store, comments)) := by
  have hbegins : BeginsWith storeAnnotationPrefix comment :=
    hstore.2.beginsWith storeAnnotationPrefix_ascii
  rw [takeStore, if_pos (annotationPrefix_store.mpr hbegins), exceptT_bind_eq_ok]
  exact ⟨store, ((parseStoreAnnotation_spec hbegins).2 store).mpr hstore, rfl⟩

theorem classifyComments_ne_none (queryName : String) (comments : List String) :
    (classifyComments (ε := ε) queryName comments).run ≠ none := by
  cases comments with
  | nil => simp [classifyComments]
  | cons first comments =>
      rw [classifyComments]
      refine exceptT_bind_ne_none (queryKindFromComment_spec queryName first).1 fun kind => ?_
      refine exceptT_bind_ne_none (takeShard_spec queryName _).1 fun shard => ?_
      refine exceptT_bind_ne_none (takeStore_spec queryName _).1 fun store => ?_
      refine exceptT_bind_ne_none (by simp) fun _ => ?_
      split <;> simp

omit [Unicode.Lawful] in
theorem StoreName.ne_empty {store : String} (h : StoreName store) : store ≠ "" := by
  rintro rfl
  obtain ⟨c, hc, -⟩ := h.exported
  cases hc

theorem classifyComments_ok_iff {queryName : String} {comments : List String}
    {kind : QueryKind} {route : Option RouteAnnotation} {store : String} :
    (classifyComments (ε := ε) queryName comments).run = some (.ok (kind, route, store)) ↔
      AnnotatedAs comments kind route store := by
  constructor
  · intro h
    cases comments with
    | nil => cases h
    | cons first comments =>
        rw [classifyComments] at h
        obtain ⟨kind', hkind, h⟩ := exceptT_bind_eq_ok.mp h
        obtain ⟨⟨route', rest⟩, hroute, h⟩ := exceptT_bind_eq_ok.mp h
        obtain ⟨⟨store', rest'⟩, hstore, h⟩ := exceptT_bind_eq_ok.mp h
        obtain ⟨⟨⟩, hrest, h⟩ := exceptT_bind_eq_ok.mp h
        split at h
        case isTrue => cases h
        case isFalse hne =>
          cases h
          obtain ⟨shardComments, rfl, hshard⟩ :=
            (takeShard_spec queryName comments).2 _ _ hroute
          obtain hempty | ⟨comment, rfl, hannotation⟩ :=
            (takeStore_spec queryName rest).2 _ _ hstore
          · exact absurd hempty hne
          · exact ⟨first, shardComments, comment, rest', rfl,
              ((queryKindFromComment_spec queryName first).2 kind).mp hkind, hshard,
              hannotation, checkRest_ok_iff.mp (Option.some.inj hrest)⟩
  · rintro ⟨kindComment, shardComments, storeComment, rest, rfl, hkind, hshard, hstore, hrest⟩
    have hhead : ∀ comment ∈ (storeComment :: rest).head?,
        ¬ BeginsWith shardAnnotationPrefix comment := by
      intro comment hcomment
      cases hcomment
      have hbegins := annotationPrefix_store.mpr
        (hstore.2.beginsWith storeAnnotationPrefix_ascii)
      rw [← annotationPrefix_shard, hbegins]
      simp
    rw [classifyComments, exceptT_bind_eq_ok]
    refine ⟨kind, ((queryKindFromComment_spec queryName _).2 kind).mpr hkind, ?_⟩
    rw [exceptT_bind_eq_ok]
    refine ⟨_, takeShard_of_annotated hshard hhead, ?_⟩
    rw [exceptT_bind_eq_ok]
    refine ⟨_, takeStore_of_annotated hstore, ?_⟩
    rw [exceptT_bind_eq_ok]
    refine ⟨(), congrArg some (checkRest_ok_iff.mpr hrest), ?_⟩
    rw [if_neg hstore.1.ne_empty]
    rfl

end Comments

/-! ## Classification -/

section Classify

variable {ε : Type} [Unicode] [Unicode.Lawful]

theorem classifyQuery_ok_iff {query : Query} {kind : QueryKind}
    {route : Option RouteAnnotation} {store : String} :
    (classifyQuery (ε := ε) query).run = some (.ok (kind, route, store)) ↔
      InOrder (split query.text '\n') ∧
        AnnotatedAs (annotationComments query) kind route store := by
  rw [classifyQuery, exceptT_bind_eq_ok, ← queryComments_eq]
  constructor
  · rintro ⟨⟨⟩, horder, hcomments⟩
    exact ⟨validateRawAnnotationOrder_ok_iff.mp (Option.some.inj horder),
      classifyComments_ok_iff.mp hcomments⟩
  · rintro ⟨horder, hcomments⟩
    exact ⟨(), congrArg some (validateRawAnnotationOrder_ok_iff.mpr horder),
      classifyComments_ok_iff.mpr hcomments⟩

/-- The generator classifies its queries by their comments. -/
def ReadsComments (g : Generator ε) : Prop :=
  ∀ query, (classifyQuery query).run = some (g.classifyQuery query)

/-- What is built for a query is what its annotations say. -/
theorem buildQuery_keeps_annotations {g : Generator ε} (hg : ReadsComments g) {query : Query}
    {built : GeneratedQuery} (h : buildQuery g query = .ok built) :
    ∃ ann, AnnotatedAs (annotationComments query) built.kind ann built.store ∧
      (ann = none ↔ built.shardMode = .none) ∧
      ∀ route ∈ built.route, ∃ a ∈ ann, route.name = a.name := by
  obtain ⟨arg, -, h⟩ := bind_eq_ok.mp h
  obtain ⟨ret, -, h⟩ := bind_eq_ok.mp h
  obtain ⟨results, -, h⟩ := bind_eq_ok.mp h
  obtain ⟨⟨kind, ann, store⟩, hclassify, h⟩ := bind_eq_ok.mp h
  have hannotated : AnnotatedAs (annotationComments query) kind ann store := by
    have hrun := hg query
    rw [hclassify] at hrun
    exact (classifyQuery_ok_iff.mp hrun).2
  cases ann with
  | none =>
      cases h
      exact ⟨none, hannotated, by simp, by simp⟩
  | some ann =>
      obtain ⟨⟨route, mode, spec⟩, hroute, h⟩ := bind_eq_ok.mp h
      cases h
      have hmode : mode ≠ .none := by
        obtain ⟨-, rfl, -⟩ | ⟨-, hmode, -⟩ := buildRoute_cases hroute
        · simp
        · rintro rfl
          simp at hmode
      refine ⟨some ann, hannotated, iff_of_false (by simp) hmode, ?_⟩
      rintro route rfl
      obtain ⟨resolved, -, hresolved, ⟨-, -, rfl⟩ | ⟨lookup, -, -, rfl⟩⟩ := buildRoute_ok hroute
      · exact ⟨ann, rfl, (resolveShardRoute_names hresolved).1⟩
      · exact ⟨ann, rfl, (resolveShardRoute_names hresolved).1⟩

/--
A query is accepted exactly when the annotations stand in order in its text and
in its comments, and then it is classified as they say.
-/
theorem classifyQuery_keeps_annotations (query : Query) :
    (classifyQuery (ε := ε) query).run ≠ none ∧
      ∀ kind route store,
        (classifyQuery (ε := ε) query).run = some (.ok (kind, route, store)) ↔
          InOrder (split query.text '\n') ∧
            AnnotatedAs (annotationComments query) kind route store := by
  constructor
  · exact exceptT_bind_ne_none (by simp) fun _ => classifyComments_ne_none _ _
  · intro kind route store
    exact classifyQuery_ok_iff

end Classify

def listMessages : Query where
  name := "ListMessages"
  cmd := ":many"
  comments := ["kind: read", "store: Messages"]

theorem classifyQuery_keeps_annotations_messages :
    let _ : Unicode := Unicode.ascii
    (classifyQuery (ε := Unit) listMessages).run = some (.ok (.read, none, "Messages")) := by
  let _ : Unicode := Unicode.ascii
  have := Unicode.lawful_ascii
  have hkind : KindAnnotation "kind: read" .read :=
    ⟨"kind:".toList, " read".toList, by decide +kernel, rfl, by decide +kernel⟩
  have hstore : StoreAnnotation "store: Messages" "Messages" :=
    ⟨⟨by decide, by decide +kernel, 'M', rfl, rfl⟩, "store:".toList, " Messages".toList,
      by decide +kernel, rfl, [' '], [], rfl, forall_mem_of_all (by decide), by simp⟩
  refine ((classifyQuery_keeps_annotations listMessages).2 _ _ _).mpr ⟨.inl ?_, ?_⟩
  · decide
  · exact ⟨_, [], _, [], rfl, hkind, .nil, hstore, by simp⟩

end PgMesh.Plugin
