import PgMesh.Foundation.Text
import PgMesh.Plugin.Query
import PgMesh.Topology.Builder

/-!
# Shard annotations

A query names its route in a comment `shard: route(operand, ...)`.  The parser
finds the first parenthesis, cuts the text by byte offsets and splits the body
at commas; it accepts exactly the texts of the relation `ShardText`.  A slice
that is out of range, or that would cut a character in two, is `none`.
-/

namespace PgMesh.Plugin

open PgMesh.Foundation
open PgMesh.Topology (isSpace)

/-! ## Strings -/

def trimSpace (s : String) : String := String.ofList (trim isSpace s.toList)

def hasSuffix (s tail : String) : Bool := tail.toList.isSuffixOf s.toList

def trimPrefix (s start : String) : String := (cutPrefix s start).getD s

def trimSuffix (s tail : String) : String :=
  if hasSuffix s tail then
    String.ofList (s.toList.take (s.toList.length - tail.toList.length))
  else s

@[simp] theorem toList_trimSpace (s : String) :
    (trimSpace s).toList = trim isSpace s.toList :=
  String.toList_ofList

theorem hasPrefix_iff {s start : String} :
    hasPrefix s start = true ↔ start.toList <+: s.toList :=
  List.isPrefixOf_iff_prefix

theorem hasSuffix_iff {s tail : String} :
    hasSuffix s tail = true ↔ tail.toList <:+ s.toList :=
  List.isSuffixOf_iff_suffix

/-! ## The parser -/

/-- The text of a comment without its markers. -/
def normalizeComment (comment : String) : String :=
  let comment := trimSpace comment
  let comment := trimPrefix comment "--"
  let comment := trimPrefix comment "//"
  let comment := trimSpace comment
  let comment :=
    if hasPrefix comment "/*" && hasSuffix comment "*/" then
      trimSuffix (trimPrefix comment "/*") "*/"
    else comment
  trimSpace comment

def shardAnnotationPrefix : String := "shard:"

section Parse

variable {ε : Type} [Unicode]

/-- The loop over the parts of the body; `operands` is also the set `seen`. -/
def parseOperands (queryName : String) :
    List String → List String → Except (GoError ε) (List String)
  | [], operands => .ok operands
  | part :: parts, operands =>
      let operand := trimSpace part
      if !validRouteIdentifier operand then
        .error (.errorf "query %s has invalid shard operand %q"
          [.text queryName, .text operand])
      else if operand ∈ operands then
        .error (.errorf "query %s repeats shard operand %q"
          [.text queryName, .text operand])
      else parseOperands queryName parts (operands ++ [operand])

def parseBody (queryName name body : String) : Except (GoError ε) RouteAnnotation :=
  if body = "" then .ok ⟨name, []⟩
  else do
    let operands ← parseOperands queryName (split body ',') []
    return ⟨name, operands⟩

def malformedShard (queryName value : String) : GoError ε :=
  .errorf "query %s has malformed shard annotation %q; expected route(parameter, ...)"
    [.text queryName, .text value]

/-- The rest of `parseShardAnnotation`, for the trimmed text after `shard:`. -/
def parseShardValue (queryName value : String) :
    Option (Except (GoError ε) RouteAnnotation) :=
  match indexByte value.toList '(' with
  | none => some (.error (malformedShard queryName value))
  | some opening =>
      if opening = 0 || !hasSuffix value ")" then
        some (.error (malformedShard queryName value))
      else do
        let head ← slice value.toList 0 opening
        let name := trimSpace (String.ofList head)
        if !validRouteIdentifier name then
          some (.error (.errorf "query %s has invalid shard route name %q"
            [.text queryName, .text name]))
        else do
          let inner ← slice value.toList (opening + 1) (byteLength value.toList - 1)
          some (parseBody queryName name (trimSpace (String.ofList inner)))

def parseShardAnnotation (queryName comment : String) :
    Option (Except (GoError ε) RouteAnnotation) := do
  let normalized := (normalizeComment comment).toList
  let rest ← slice normalized (byteLength shardAnnotationPrefix.toList)
    (byteLength normalized)
  parseShardValue queryName (trimSpace (String.ofList rest))

end Parse

/-! ## The grammar -/

/-- The text is the keyword, in letters of either case. -/
def Spells (text : List Char) (keyword : String) : Prop :=
  text.map Char.toLower = keyword.toList

/-- Elements separated by commas, each with white space around it. -/
def ListText (elements : List String) (text : List Char) : Prop :=
  (elements = [] ∧ ∀ c ∈ text, isSpace c = true) ∨
    (elements ≠ [] ∧ ∃ parts, text = [','].intercalate parts ∧
      List.Forall₂ (fun element part => Padded isSpace element.toList part) elements parts)

/--
A route name, a list of distinct operands in parentheses, and white space
around every element.
-/
structure ShardText [Unicode] (name : String) (operands : List String)
    (text : List Char) : Prop where
  valid_name : validRouteIdentifier name = true
  valid_operands : ∀ operand ∈ operands, validRouteIdentifier operand = true
  nodup : operands.Nodup
  spelled : ∃ head body tail, text = head ++ '(' :: (body ++ ')' :: tail) ∧
    Padded isSpace name.toList head ∧ ListText operands body ∧
    ∀ c ∈ tail, isSpace c = true

/-! ## Characters -/

def kelvinSign : Char := Char.ofNat 0x212a

def dottedI : Char := Char.ofNat 0x130

/--
What package `unicode` documents about the functions the generator calls.  Two
characters outside ASCII have a lower case inside it.
-/
class Unicode.Lawful [Unicode] : Prop where
  isLetter_ascii : ∀ c : Char, c.toNat < 128 → Unicode.isLetter c = c.isAlpha
  isDigit_ascii : ∀ c : Char, c.toNat < 128 → Unicode.isDigit c = c.isDigit
  isSpace_letter : ∀ c : Char, Unicode.isLetter c = true → isSpace c = false
  isSpace_digit : ∀ c : Char, Unicode.isDigit c = true → isSpace c = false
  toLower_ascii : ∀ c : Char, c.toNat < 128 → Unicode.toLower c = c.toLower
  toLower_other : ∀ c : Char, 128 ≤ c.toNat → (Unicode.toLower c).toNat < 128 →
    (c = kelvinSign ∧ Unicode.toLower c = 'k') ∨ (c = dottedI ∧ Unicode.toLower c = 'i')

theorem toNat_toLower (c : Char) :
    c.toLower.toNat = if 65 ≤ c.toNat ∧ c.toNat ≤ 90 then c.toNat + 32 else c.toNat := by
  unfold Char.toLower
  split
  case isTrue h =>
    have h65 : 65 ≤ c.toNat := h.1
    have h90 : c.toNat ≤ 90 := h.2
    have hsum : (c.val + ('a'.val - 'A'.val)).toNat = c.toNat + 32 := by
      rw [UInt32.toNat_add]
      change (c.toNat + 32) % 2 ^ 32 = c.toNat + 32
      omega
    rw [if_pos ⟨h65, h90⟩]
    exact hsum
  case isFalse h =>
    rw [if_neg]
    rintro ⟨h65, h90⟩
    exact h ⟨h65, h90⟩

theorem isSpace_toLower (c : Char) : isSpace c.toLower = isSpace c := by
  simp only [isSpace, toNat_toLower]
  split
  case isTrue h =>
    rw [Bool.eq_iff_iff]
    simp
    omega
  case isFalse h => rfl

theorem isSpace_ascii {c : Char} (h : c.isAlphanum = true) : isSpace c = false := by
  have hval : c.toNat = c.val.toNat := rfl
  delta Char.isAlphanum Char.isAlpha Char.isUpper Char.isLower Char.isDigit at h
  simp [UInt32.le_iff_toNat_le] at h
  simp [isSpace]
  omega

theorem Unicode.lawful_ascii : @Unicode.Lawful Unicode.ascii := by
  let _ : Unicode := Unicode.ascii
  refine ⟨fun _ _ => rfl, fun _ _ => rfl, ?_, ?_, fun _ _ => rfl, ?_⟩
  · intro c hc
    exact isSpace_ascii (Bool.or_eq_true_iff.mpr (.inl hc))
  · intro c hc
    exact isSpace_ascii (Bool.or_eq_true_iff.mpr (.inr hc))
  · intro c hc hlower
    have htable := toNat_toLower c
    have hlower : c.toLower.toNat < 128 := hlower
    rw [if_neg (by omega)] at htable
    omega

section Identifiers

variable [Unicode]

/-- A character of a Go identifier. -/
def isIdentifierChar (c : Char) : Bool :=
  Unicode.isLetter c || Unicode.isDigit c || c == '_'

theorem isIdentifierChar_of_valid {value : String} (h : validRouteIdentifier value = true)
    {c : Char} (hc : c ∈ value.toList) : isIdentifierChar c = true := by
  obtain ⟨index, hindex, hget⟩ := List.getElem_of_mem hc
  simp only [validRouteIdentifier, ne_eq, decide_not, Bool.and_eq_true,
    List.all_eq_true] at h
  have hx := h.2 (c, index) (by
    rw [List.mem_zipIdx_iff_getElem?]
    simp [hindex, hget])
  simp only [Bool.or_eq_true, Bool.and_eq_true, isIdentifierChar] at hx ⊢
  obtain (hletter | hunderscore) | ⟨-, hdigit⟩ := hx
  · exact .inl (.inl hletter)
  · exact .inr hunderscore
  · exact .inl (.inr hdigit)

variable [Unicode.Lawful]

theorem isIdentifierChar_ascii {c : Char} (hc : c.toNat < 128) :
    isIdentifierChar c = (c.isAlpha || c.isDigit || c == '_') := by
  rw [isIdentifierChar, Unicode.Lawful.isLetter_ascii c hc,
    Unicode.Lawful.isDigit_ascii c hc]

/-- No character of an identifier is white space or a delimiter. -/
theorem validRouteIdentifier_mem {value : String} (h : validRouteIdentifier value = true)
    {c : Char} (hc : c ∈ value.toList) :
    isSpace c = false ∧ c ≠ '(' ∧ c ≠ ',' := by
  have hx := isIdentifierChar_of_valid h hc
  have hascii : ∀ d : Char, d.toNat < 128 →
      (d.isAlpha || d.isDigit || d == '_') = false → c ≠ d := by
    rintro d hd hother rfl
    rw [isIdentifierChar_ascii hd, hother] at hx
    cases hx
  refine ⟨?_, hascii _ (by decide) (by decide), hascii _ (by decide) (by decide)⟩
  simp only [isIdentifierChar, Bool.or_eq_true, beq_iff_eq] at hx
  obtain (hletter | hdigit) | rfl := hx
  · exact Unicode.Lawful.isSpace_letter c hletter
  · exact Unicode.Lawful.isSpace_digit c hdigit
  · decide

theorem trimmed_of_valid {value : String} (h : validRouteIdentifier value = true) :
    Trimmed isSpace value.toList :=
  .of_all fun _ hc => (validRouteIdentifier_mem h hc).1

omit [Unicode.Lawful] in
theorem ne_nil_of_valid {value : String} (h : validRouteIdentifier value = true) :
    value.toList ≠ [] := by
  intro hnil
  rw [String.toList_eq_nil_iff] at hnil
  simp [validRouteIdentifier, hnil] at h

/-- An identifier with white space around it has no delimiter. -/
theorem padded_mem {value : String} (h : validRouteIdentifier value = true)
    {text : List Char} (hpadded : Padded isSpace value.toList text) {c : Char}
    (hc : c ∈ text) : c ≠ '(' ∧ c ≠ ',' := by
  obtain ⟨before, after, rfl, hbefore, hafter⟩ := hpadded
  have hspace : isSpace c = true → c ≠ '(' ∧ c ≠ ',' := by
    intro hspace
    constructor <;> rintro rfl <;> exact absurd hspace (by decide)
  simp only [List.mem_append] at hc
  obtain (hc | hc) | hc := hc
  · exact hspace (hbefore c hc)
  · exact (validRouteIdentifier_mem h hc).2
  · exact hspace (hafter c hc)

theorem trimSpace_eq_iff {value : String} (h : validRouteIdentifier value = true)
    {text : List Char} :
    trimSpace (String.ofList text) = value ↔ Padded isSpace value.toList text := by
  rw [← String.toList_inj, toList_trimSpace, String.toList_ofList, trim_eq_iff]
  exact and_iff_left (trimmed_of_valid h)

end Identifiers

/-! ## The operands -/

section Operands

variable {ε : Type} [Unicode]

/-- The loop accepts distinct identifiers, and returns them without white space. -/
theorem parseOperands_ok_iff {queryName : String} {parts seen operands : List String}
    (hseen : seen.Nodup) :
    parseOperands (ε := ε) queryName parts seen = .ok operands ↔
      operands = seen ++ parts.map trimSpace ∧ operands.Nodup ∧
        ∀ part ∈ parts, validRouteIdentifier (trimSpace part) = true := by
  induction parts generalizing seen with
  | nil =>
      simp only [parseOperands, Except.ok.injEq, List.map_nil, List.append_nil,
        List.not_mem_nil, false_implies, implies_true, and_true]
      constructor
      · rintro rfl
        exact ⟨rfl, hseen⟩
      · rintro ⟨rfl, -⟩
        rfl
  | cons part parts ih =>
      simp only [parseOperands]
      split
      case isTrue hinvalid =>
        constructor
        · intro h
          cases h
        · rintro ⟨-, -, hvalid⟩
          rw [hvalid part List.mem_cons_self] at hinvalid
          cases hinvalid
      split
      case isTrue hrepeated =>
        constructor
        · intro h
          cases h
        · rintro ⟨rfl, hnodup, -⟩
          have hdisjoint := (List.nodup_append.mp hnodup).2.2
          exact absurd rfl (hdisjoint _ hrepeated _ (by simp))
      case isFalse.isFalse hvalid hnew =>
        have hnodup : (seen ++ [trimSpace part]).Nodup := by
          rw [List.nodup_append]
          refine ⟨hseen, List.nodup_singleton _, ?_⟩
          intro a ha b hb hab
          rw [List.mem_singleton.mp hb] at hab
          exact hnew (hab ▸ ha)
        rw [ih hnodup]
        simp only [List.map_cons, List.append_assoc, List.singleton_append,
          List.mem_cons, forall_eq_or_imp]
        simp only [Bool.not_eq_true, Bool.not_eq_false'] at hvalid
        simp [hvalid]

variable [Unicode.Lawful]

theorem map_trim_of_padded {elements : List String} {parts : List (List Char)}
    (hvalid : ∀ element ∈ elements, validRouteIdentifier element = true)
    (h : List.Forall₂ (fun element part => Padded isSpace element.toList part)
      elements parts) :
    parts.map (trim isSpace) = elements.map String.toList ∧ ∀ part ∈ parts, ',' ∉ part := by
  induction h with
  | nil => simp
  | @cons element part elements parts hpadded _ ih =>
      have helement := hvalid element List.mem_cons_self
      obtain ⟨hmap, hcomma⟩ := ih fun e he => hvalid e (List.mem_cons_of_mem _ he)
      rw [List.map_cons, List.map_cons, hmap,
        trim_of_padded hpadded (trimmed_of_valid helement)]
      refine ⟨rfl, ?_⟩
      intro part' hpart'
      rcases List.mem_cons.mp hpart' with rfl | hmem
      · exact fun hmem => (padded_mem helement hpadded hmem).2 rfl
      · exact hcomma part' hmem

/-- A list of identifiers is read back by splitting at the commas and trimming. -/
theorem listText_iff {operands : List String} {body : List Char}
    (hvalid : ∀ operand ∈ operands, validRouteIdentifier operand = true)
    (hbody : ¬ ∀ c ∈ body, isSpace c = true) :
    ListText operands body ↔
      operands.map String.toList = (body.splitOn ',').map (trim isSpace) := by
  constructor
  · rintro (⟨-, hblank⟩ | ⟨hne, parts, rfl, hparts⟩)
    · exact absurd hblank hbody
    · obtain ⟨hmap, hcomma⟩ := map_trim_of_padded hvalid hparts
      have hparts_ne : parts ≠ [] := by
        rintro rfl
        cases hparts
        exact hne rfl
      rw [List.splitOn_intercalate ',' hcomma hparts_ne, hmap]
  · intro hmap
    refine .inr ⟨?_, body.splitOn ',', (List.intercalate_splitOn ',').symm, ?_⟩
    · rintro rfl
      exact List.splitOn_ne_nil ',' body (List.map_eq_nil_iff.mp hmap.symm)
    · have hpointwise : List.Forall₂ Eq (operands.map String.toList)
          ((body.splitOn ',').map (trim isSpace)) := by
        rw [hmap]
        exact List.forall₂_refl _
      rw [List.forall₂_map_left_iff, List.forall₂_map_right_iff] at hpointwise
      exact hpointwise.imp fun _ _ h => h ▸ padded_trim _

omit [Unicode] [Unicode.Lawful] in
theorem map_split_trimSpace (body : List Char) :
    ((split (trimSpace (String.ofList body)) ',').map trimSpace).map String.toList =
      (body.splitOn ',').map (trim isSpace) := by
  rw [← map_trim_splitOn_trim (by decide)]
  simp [split, Function.comp_def]

theorem listText_nil_iff {operands : List String} {body : List Char}
    (hvalid : ∀ operand ∈ operands, validRouteIdentifier operand = true)
    (hbody : ∀ c ∈ body, isSpace c = true) : ListText operands body ↔ operands = [] := by
  constructor
  · rintro (⟨rfl, -⟩ | ⟨hne, parts, rfl, hparts⟩)
    · rfl
    · cases hparts with
      | nil => rfl
      | @cons operand part operands parts hpadded =>
          -- An identifier has a character, and that is not white space.
          have hoperand := hvalid operand List.mem_cons_self
          obtain ⟨c, hc⟩ := List.exists_mem_of_ne_nil _ (ne_nil_of_valid hoperand)
          obtain ⟨before, after, rfl, -⟩ := hpadded
          have hmem : c ∈ [','].intercalate ((before ++ operand.toList ++ after) :: parts) := by
            cases parts with
            | nil => simp [hc]
            | cons part parts => simp [List.intercalate_cons_cons, hc]
          have hspace := hbody c hmem
          rw [(validRouteIdentifier_mem hoperand hc).1] at hspace
          cases hspace
  · rintro rfl
    exact .inl ⟨rfl, hbody⟩

theorem parseBody_ok_iff {queryName name : String} {body : List Char}
    {ann : RouteAnnotation} :
    parseBody (ε := ε) queryName name (trimSpace (String.ofList body)) = .ok ann ↔
      ann.name = name ∧
        (∀ operand ∈ ann.operands, validRouteIdentifier operand = true) ∧
        ann.operands.Nodup ∧ ListText ann.operands body := by
  obtain ⟨name', operands⟩ := ann
  have hblank : trimSpace (String.ofList body) = "" ↔ ∀ c ∈ body, isSpace c = true := by
    rw [← String.toList_eq_nil_iff, toList_trimSpace, String.toList_ofList, trim_eq_nil_iff]
  unfold parseBody
  split
  case isTrue hempty =>
    rw [Except.ok.injEq, RouteAnnotation.mk.injEq]
    constructor
    · rintro ⟨rfl, rfl⟩
      exact ⟨rfl, by simp, List.nodup_nil, .inl ⟨rfl, hblank.mp hempty⟩⟩
    · rintro ⟨rfl, hvalid, -, hlist⟩
      exact ⟨rfl, ((listText_nil_iff hvalid (hblank.mp hempty)).mp hlist).symm⟩
  case isFalse hempty =>
    have hbody : ¬ ∀ c ∈ body, isSpace c = true := fun h => hempty (hblank.mpr h)
    have hread : ∀ {ops : List String},
        ops = (split (trimSpace (String.ofList body)) ',').map trimSpace ↔
          ops.map String.toList = (body.splitOn ',').map (trim isSpace) := by
      intro ops
      have hinj : Function.Injective (List.map String.toList) :=
        List.map_injective_iff.mpr fun _ _ h => String.toList_injective h
      rw [← map_split_trimSpace, hinj.eq_iff]
    rw [bind_eq_ok]
    constructor
    · rintro ⟨ops, hops, hann⟩
      cases hann
      obtain ⟨hmap, hnodup, hvalid⟩ := (parseOperands_ok_iff List.nodup_nil).mp hops
      rw [List.nil_append] at hmap
      have hall : ∀ operand ∈ operands, validRouteIdentifier operand = true := by
        intro operand hoperand
        rw [hmap] at hoperand
        obtain ⟨part, hpart, rfl⟩ := List.mem_map.mp hoperand
        exact hvalid part hpart
      exact ⟨rfl, hall, hnodup, (listText_iff hall hbody).mpr (hread.mp hmap)⟩
    · rintro ⟨rfl, hall, hnodup, hlist⟩
      have hmap := hread.mpr ((listText_iff hall hbody).mp hlist)
      refine ⟨operands, ?_, rfl⟩
      rw [parseOperands_ok_iff List.nodup_nil, List.nil_append]
      refine ⟨hmap, hnodup, ?_⟩
      intro part hpart
      apply hall
      rw [hmap]
      exact List.mem_map_of_mem hpart

end Operands

/-! ## The whole annotation -/

section Annotation

variable {ε : Type} [Unicode]

/-- The slices cut a text at its first and its last parenthesis. -/
theorem parseShardValue_parens {queryName : String} {head body : List Char}
    (hhead : '(' ∉ head) (hne : head ≠ []) :
    parseShardValue (ε := ε) queryName (String.ofList (head ++ '(' :: (body ++ [')']))) =
      if !validRouteIdentifier (trimSpace (String.ofList head)) then
        some (.error (.errorf "query %s has invalid shard route name %q"
          [.text queryName, .text (trimSpace (String.ofList head))]))
      else
        some (parseBody queryName (trimSpace (String.ofList head))
          (trimSpace (String.ofList body))) := by
  have hopening : byteLength head ≠ 0 := by
    cases head with
    | nil => exact absurd rfl hne
    | cons c head =>
        rw [byteLength_cons]
        omega
  have hsuffix : hasSuffix (String.ofList (head ++ '(' :: (body ++ [')']))) ")" = true := by
    rw [hasSuffix_iff, String.toList_ofList]
    exact ⟨head ++ '(' :: body, by simp⟩
  have hfirst : slice (head ++ '(' :: (body ++ [')'])) 0 (byteLength head) = some head :=
    slice_append [] head _
  have hinner : slice (head ++ '(' :: (body ++ [')'])) (byteLength head + 1)
      (byteLength (head ++ '(' :: (body ++ [')'])) - 1) = some body := by
    have h := slice_append (head ++ ['(']) body [')']
    have hparen : ∀ c ∈ ['(', ')'], byteLength [c] = 1 := forall_mem_of_all (by decide)
    simp only [byteLength_append, hparen _ (by simp : '(' ∈ ['(', ')'])] at h
    have hlength : byteLength (head ++ '(' :: (body ++ [')'])) - 1 =
        byteLength head + 1 + byteLength body := by
      rw [show head ++ '(' :: (body ++ [')']) = head ++ ['('] ++ (body ++ [')']) by simp]
      simp only [byteLength_append, hparen _ (by simp : '(' ∈ ['(', ')']),
        hparen _ (by simp : ')' ∈ ['(', ')'])]
      omega
    rw [hlength, ← h]
    simp
  rw [parseShardValue, String.toList_ofList, indexByte_append hhead]
  simp only [hopening, hsuffix, hfirst, hinner, decide_false, Bool.not_true, Bool.or_false,
    Bool.false_eq_true, if_false, Option.bind_eq_bind, Option.bind_some]

/-- The form that the search for parentheses accepts. -/
def Parenthesized (text : List Char) : Prop :=
  ∃ head body, '(' ∉ head ∧ head ≠ [] ∧ text = head ++ '(' :: (body ++ [')'])

theorem parseShardValue_malformed {queryName value : String}
    (h : ¬ Parenthesized value.toList) :
    parseShardValue (ε := ε) queryName value =
      some (.error (malformedShard queryName value)) := by
  unfold parseShardValue
  by_cases hmem : '(' ∈ value.toList
  · obtain ⟨head, after, hvalue, hhead⟩ := List.eq_append_cons_of_mem hmem
    rw [hvalue, indexByte_append hhead]
    refine if_pos ?_
    by_contra hboth
    simp only [Bool.or_eq_true, decide_eq_true_eq, Bool.not_eq_true', not_or,
      Bool.not_eq_false, hasSuffix_iff] at hboth
    obtain ⟨hopening, before, hsuffix⟩ := hboth
    apply h
    have hne : head ≠ [] := by
      rintro rfl
      exact hopening rfl
    -- The last character is no opening parenthesis, so it comes after the first one.
    rw [hvalue, show ")".toList = [')'] from rfl] at hsuffix
    rcases List.eq_nil_or_concat after with rfl | ⟨body, last, rfl⟩
    · have hlast := (List.append_inj' hsuffix rfl).2
      cases hlast
    · rw [List.concat_eq_append, ← List.cons_append, ← List.append_assoc] at hsuffix
      have hlast := (List.append_inj' hsuffix rfl).2
      cases hlast
      exact ⟨head, body, hhead, hne, by rw [hvalue, List.concat_eq_append]⟩
  · rw [indexByte, if_neg hmem]

variable [Unicode.Lawful]

theorem ShardText.parenthesized {name : String} {operands : List String}
    {text : List Char} (h : ShardText name operands text) (htext : Trimmed isSpace text) :
    Parenthesized text := by
  obtain ⟨head, body, tail, rfl, hhead, -, htail⟩ := h.spelled
  refine ⟨head, body, ?_, ?_, ?_⟩
  · exact fun hmem => (padded_mem h.valid_name hhead hmem).1 rfl
  · rintro rfl
    obtain ⟨before, after, hnil, -⟩ := hhead
    have hname : name.toList = [] := by simp_all
    exact ne_nil_of_valid h.valid_name hname
  · rcases List.eq_nil_or_concat tail with rfl | ⟨tail, last, rfl⟩
    · rfl
    · have hspace := htail last (by simp)
      have hlast : (head ++ '(' :: (body ++ ')' :: tail.concat last)).getLast? = some last := by
        rw [List.concat_eq_append]
        simp [List.getLast?_cons]
      rw [htext.2 last hlast] at hspace
      cases hspace

theorem shardText_parens {name : String} {operands : List String} {head body : List Char}
    (hhead : '(' ∉ head) :
    ShardText name operands (head ++ '(' :: (body ++ [')'])) ↔
      validRouteIdentifier name = true ∧
        (∀ operand ∈ operands, validRouteIdentifier operand = true) ∧ operands.Nodup ∧
        Padded isSpace name.toList head ∧ ListText operands body := by
  constructor
  · rintro ⟨hname, hoperands, hnodup, head', body', tail, heq, hpadded, hlist, htail⟩
    have hhead' : '(' ∉ head' := fun hmem => (padded_mem hname hpadded hmem).1 rfl
    obtain ⟨rfl, hbody⟩ := (append_separator_inj hhead hhead').mp heq
    rcases List.eq_nil_or_concat tail with rfl | ⟨tail, last, rfl⟩
    · obtain ⟨rfl, -⟩ := List.append_inj' hbody rfl
      exact ⟨hname, hoperands, hnodup, hpadded, hlist⟩
    · rw [List.concat_eq_append, ← List.cons_append, ← List.append_assoc] at hbody
      obtain ⟨-, hlast⟩ := List.append_inj' hbody rfl
      cases hlast
      exact absurd (htail ')' (by simp)) (by decide)
  · rintro ⟨hname, hoperands, hnodup, hpadded, hlist⟩
    exact ⟨hname, hoperands, hnodup, head, body, [], rfl, hpadded, hlist, by simp⟩

/-- White space at the ends does not matter. -/
theorem shardText_trim {name : String} {operands : List String} {text : List Char} :
    ShardText name operands (trim isSpace text) ↔ ShardText name operands text := by
  constructor
  · intro h
    obtain ⟨head, body, tail, htrim, hpadded, hlist, htail⟩ := h.spelled
    obtain ⟨before, after, htext, hbefore, hafter⟩ := padded_trim (p := isSpace) text
    refine ⟨h.valid_name, h.valid_operands, h.nodup, before ++ head, body, tail ++ after,
      ?_, hpadded.trans ⟨before, [], by simp, hbefore, by simp⟩, hlist, ?_⟩
    · rw [htext, htrim]
      simp
    · intro c hc
      exact (List.mem_append.mp hc).elim (htail c) (hafter c)
  · intro h
    obtain ⟨head, body, tail, rfl, ⟨before, after, rfl, hbefore, hafter⟩, hlist, htail⟩ :=
      h.spelled
    have htrim : trim isSpace (before ++ name.toList ++ after ++ '(' :: (body ++ ')' :: tail)) =
        name.toList ++ after ++ '(' :: (body ++ [')']) := by
      apply trim_of_padded ⟨before, tail, by simp, hbefore, htail⟩
      constructor
      · intro x hx
        obtain ⟨c, chars, hname⟩ := List.exists_cons_of_ne_nil (ne_nil_of_valid h.valid_name)
        rw [hname] at hx
        cases hx
        exact (validRouteIdentifier_mem h.valid_name (by simp [hname])).1
      · intro x hx
        rw [← List.cons_append, ← List.append_assoc, List.getLast?_concat] at hx
        cases hx
        decide
    rw [htrim]
    exact ⟨h.valid_name, h.valid_operands, h.nodup, name.toList ++ after, body, [], rfl,
      ⟨[], after, by simp, by simp, hafter⟩, hlist, by simp⟩

theorem parseShardValue_ok_iff {queryName name : String} {operands : List String}
    {value : List Char} (hvalue : Trimmed isSpace value) :
    parseShardValue (ε := ε) queryName (String.ofList value) = some (.ok ⟨name, operands⟩) ↔
      ShardText name operands value := by
  by_cases hform : Parenthesized value
  · obtain ⟨head, body, hhead, hne, rfl⟩ := hform
    rw [parseShardValue_parens hhead hne, shardText_parens hhead]
    split
    case isTrue hinvalid =>
      constructor
      · intro h
        cases h
      · rintro ⟨hname, -, -, hpadded, -⟩
        rw [(trimSpace_eq_iff hname).mpr hpadded, hname] at hinvalid
        cases hinvalid
    case isFalse hhead_valid =>
      have hhead_valid : validRouteIdentifier (trimSpace (String.ofList head)) = true := by
        simpa using hhead_valid
      rw [Option.some.injEq, parseBody_ok_iff]
      constructor
      · rintro ⟨rfl, hoperands, hnodup, hlist⟩
        exact ⟨hhead_valid, hoperands, hnodup, (trimSpace_eq_iff hhead_valid).mp rfl, hlist⟩
      · rintro ⟨hname, hoperands, hnodup, hpadded, hlist⟩
        exact ⟨((trimSpace_eq_iff hname).mpr hpadded).symm, hoperands, hnodup, hlist⟩
  · rw [parseShardValue_malformed (by rwa [String.toList_ofList])]
    constructor
    · intro h
      cases h
    · intro h
      exact absurd (h.parenthesized hvalue) hform

omit [Unicode.Lawful] in
/-- No slice of the parser is out of range. -/
theorem parseShardValue_isSome (queryName value : String) :
    (parseShardValue (ε := ε) queryName value).isSome = true := by
  by_cases hform : Parenthesized value.toList
  · obtain ⟨head, body, hhead, hne, hvalue⟩ := hform
    rw [← String.ofList_toList (s := value), hvalue, parseShardValue_parens hhead hne]
    split <;> rfl
  · rw [parseShardValue_malformed hform]
    rfl

end Annotation

/-! ## Keywords and markers -/

theorem Spells.ascii {text : List Char} {keyword : String} (h : Spells text keyword)
    (hkeyword : ∀ c ∈ keyword.toList, c.toNat < 128) : ∀ c ∈ text, c.toNat < 128 := by
  intro c hc
  have hlower : c.toLower.toNat < 128 := by
    apply hkeyword
    rw [← h]
    exact List.mem_map_of_mem hc
  rw [toNat_toLower] at hlower
  split at hlower <;> omega

theorem Spells.byteLength_eq {text : List Char} {keyword : String} (h : Spells text keyword)
    (hkeyword : ∀ c ∈ keyword.toList, c.toNat < 128) :
    byteLength text = byteLength keyword.toList := by
  rw [byteLength_ascii (h.ascii hkeyword), byteLength_ascii hkeyword, ← h, List.length_map]

theorem shardAnnotationPrefix_ascii : ∀ c ∈ shardAnnotationPrefix.toList, c.toNat < 128 :=
  forall_mem_of_all (by decide)

theorem parseShardAnnotation_eq {ε : Type} [Unicode] {queryName comment : String}
    {start rest : List Char} (hcomment : (normalizeComment comment).toList = start ++ rest)
    (hstart : Spells start shardAnnotationPrefix) :
    parseShardAnnotation (ε := ε) queryName comment =
      parseShardValue queryName (trimSpace (String.ofList rest)) := by
  rw [ parseShardAnnotation, hcomment, ← hstart.byteLength_eq shardAnnotationPrefix_ascii,
    slice_drop, Option.bind_eq_bind, Option.bind_some]

theorem parseShardAnnotation_ok_iff {ε : Type} [Unicode] [Unicode.Lawful]
    {queryName comment name : String} {operands : List String} {start rest : List Char}
    (hcomment : (normalizeComment comment).toList = start ++ rest)
    (hstart : Spells start shardAnnotationPrefix) :
    parseShardAnnotation (ε := ε) queryName comment = some (.ok ⟨name, operands⟩) ↔
      ShardText name operands rest := by
  rw [parseShardAnnotation_eq hcomment hstart, trimSpace, String.toList_ofList,
    parseShardValue_ok_iff (trimmed_trim rest), shardText_trim]

theorem trimPrefix_of_head {core : List Char} {marker : String} {c : Char}
    (hcore : ∀ x ∈ core.head?, x ≠ c) (hmarker : marker.toList.head? = some c) :
    trimPrefix (String.ofList core) marker = String.ofList core ∧
      hasPrefix (String.ofList core) marker = false := by
  have hno : hasPrefix (String.ofList core) marker = false := by
    rw [Bool.eq_false_iff]
    intro hprefix
    rw [hasPrefix_iff, String.toList_ofList] at hprefix
    obtain ⟨rest, rfl⟩ := hprefix
    apply hcore c ?_ rfl
    rw [List.head?_append, hmarker]
    rfl
  exact ⟨by simp [trimPrefix, cutPrefix, hno], hno⟩

/-- A text that begins with no marker is only trimmed. -/
theorem normalizeComment_plain {text core : List Char} (htext : Padded isSpace core text)
    (hcore : Trimmed isSpace core) (hdash : ∀ x ∈ core.head?, x ≠ '-')
    (hslash : ∀ x ∈ core.head?, x ≠ '/') :
    (normalizeComment (String.ofList text)).toList = core := by
  have htrim : trimSpace (String.ofList text) = String.ofList core := by
    rw [trimSpace, String.toList_ofList, trim_of_padded htext hcore]
  have hself : trimSpace (String.ofList core) = String.ofList core := by
    rw [trimSpace, String.toList_ofList, hcore.trim_eq]
  have hdashes : trimPrefix (String.ofList core) "--" = String.ofList core :=
    (trimPrefix_of_head hdash rfl).1
  have hslashes : trimPrefix (String.ofList core) "//" = String.ofList core :=
    (trimPrefix_of_head hslash rfl).1
  have hblock : hasPrefix (String.ofList core) "/*" = false :=
    (trimPrefix_of_head hslash rfl).2
  unfold normalizeComment
  rw [htrim]
  dsimp only
  rw [hdashes, hslashes, hself, hblock, Bool.false_and, if_neg Bool.false_ne_true, hself,
    String.toList_ofList]

theorem eq_of_toLower {c : Char} (h : c.toLower = 's') : c = 's' ∨ c = 'S' := by
  have htable := toNat_toLower c
  rw [h, show 's'.toNat = 115 from rfl] at htable
  split at htable
  · exact .inr (Char.toNat_inj.mp (show c.toNat = 83 by omega))
  · exact .inl (Char.toNat_inj.mp htable.symm)

/-- The text of an annotation that is written without a marker. -/
theorem normalizeComment_shard [Unicode] {name : String} {operands : List String}
    {start text : List Char} (hstart : Spells start shardAnnotationPrefix)
    (htext : ShardText name operands text) :
    ∃ rest, (normalizeComment (String.ofList (start ++ text))).toList = start ++ rest ∧
      ShardText name operands rest := by
  obtain ⟨head, body, tail, rfl, hpadded, hlist, htail⟩ := htext.spelled
  have hfirst : ∃ c letters, start = c :: letters ∧ (c = 's' ∨ c = 'S') := by
    cases start with
    | nil => cases hstart
    | cons c letters => exact ⟨c, letters, rfl, eq_of_toLower (List.cons.inj hstart).1⟩
  obtain ⟨c, letters, rfl, hc⟩ := hfirst
  refine ⟨head ++ '(' :: (body ++ [')']), ?_, ⟨htext.valid_name, htext.valid_operands,
    htext.nodup, head, body, [], rfl, hpadded, hlist, by simp⟩⟩
  apply normalizeComment_plain
  · exact ⟨[], tail, by simp, by simp, htail⟩
  · constructor
    · rintro x hx
      cases hx
      rcases hc with rfl | rfl <;> decide
    · intro x hx
      rw [show c :: letters ++ (head ++ '(' :: (body ++ [')'])) =
        c :: letters ++ (head ++ '(' :: body) ++ [')'] by simp, List.getLast?_concat] at hx
      cases hx
      decide
  · rintro x hx
    cases hx
    rcases hc with rfl | rfl <;> decide
  · rintro x hx
    cases hx
    rcases hc with rfl | rfl <;> decide

/--
The parser accepts exactly the texts of the grammar after the keyword, and it
never slices out of range.  A name and operands that are written with any white
space around them are returned unchanged.
-/
theorem parseShardAnnotation_accepts_grammar {ε : Type} [Unicode] [Unicode.Lawful]
    (queryName comment : String) (start rest : List Char)
    (hcomment : (normalizeComment comment).toList = start ++ rest)
    (hstart : Spells start shardAnnotationPrefix) :
    (∀ name operands,
      parseShardAnnotation (ε := ε) queryName comment = some (.ok ⟨name, operands⟩) ↔
        ShardText name operands rest) ∧
    ( parseShardAnnotation (ε := ε) queryName comment).isSome = true ∧
    ∀ name operands text, ShardText name operands text →
      parseShardAnnotation (ε := ε) queryName (String.ofList (start ++ text)) =
        some (.ok ⟨name, operands⟩) := by
  refine ⟨fun name operands => parseShardAnnotation_ok_iff hcomment hstart, ?_, ?_⟩
  · rw [parseShardAnnotation_eq hcomment hstart]
    exact parseShardValue_isSome queryName _
  · intro name operands text htext
    obtain ⟨rest, hrest, hshard⟩ := normalizeComment_shard hstart htext
    exact (parseShardAnnotation_ok_iff hrest hstart).mpr hshard

theorem parseShardAnnotation_accepts_grammar_p2p :
    let _ : Unicode := Unicode.ascii
    (normalizeComment "-- Shard: p2p( user_id, peer_id )").toList =
        "Shard:".toList ++ " p2p( user_id, peer_id )".toList ∧
      Spells "Shard:".toList shardAnnotationPrefix ∧
      ShardText "p2p" ["user_id", "peer_id"] " p2p( user_id, peer_id )".toList := by
  let _ : Unicode := Unicode.ascii
  have := Unicode.lawful_ascii
  have hcomment : (normalizeComment "-- Shard: p2p( user_id, peer_id )").toList =
      "Shard:".toList ++ " p2p( user_id, peer_id )".toList := by decide
  have hstart : Spells "Shard:".toList shardAnnotationPrefix := rfl
  refine ⟨hcomment, hstart, ?_⟩
  exact ((parseShardAnnotation_accepts_grammar (ε := Unit) "ListMessages" _ _ _ hcomment
    hstart).1 "p2p" ["user_id", "peer_id"]).mp rfl

end PgMesh.Plugin
