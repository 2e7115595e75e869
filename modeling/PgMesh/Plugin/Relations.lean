import PgMesh.Foundation.Scanner
import PgMesh.Foundation.Text

/-!
# Relations in the text of a query

`queryRelationIdentifiers` looks for the tables that a query names.  It splits the
text, byte by byte, into identifiers, dots and parentheses; strings and comments
are passed over.  The position of a loop is the text that is left.
-/

namespace PgMesh.Plugin

open PgMesh.Foundation

abbrev Bytes := List UInt8

def ascii (s : String) : Bytes := s.toList.map Char.toUInt8

structure SqlRelationToken where
  value : Bytes
  identifier : Bool
  quoted : Bool
  deriving DecidableEq, Repr

/-! ## Classes of bytes -/

def newline : UInt8 := '\n'.toUInt8

def dash : UInt8 := '-'.toUInt8

def slash : UInt8 := '/'.toUInt8

def star : UInt8 := '*'.toUInt8

def singleQuote : UInt8 := '\x27'.toUInt8

def doubleQuote : UInt8 := '\x22'.toUInt8

def dollarSign : UInt8 := '$'.toUInt8

def dotByte : UInt8 := '.'.toUInt8

def parenByte : UInt8 := '('.toUInt8

def isSQLSpace (value : UInt8) : Bool := (ascii " \t\n\r\x0c").contains value

def isSQLIdentifierStart (value : UInt8) : Bool :=
  value == '_'.toUInt8 || ('a'.toUInt8 ≤ value && value ≤ 'z'.toUInt8) ||
    ('A'.toUInt8 ≤ value && value ≤ 'Z'.toUInt8)

def isSQLDollarTagPart (value : UInt8) : Bool :=
  isSQLIdentifierStart value || ('0'.toUInt8 ≤ value && value ≤ '9'.toUInt8)

def isSQLIdentifierPart (value : UInt8) : Bool :=
  isSQLIdentifierStart value || ('0'.toUInt8 ≤ value && value ≤ '9'.toUInt8) ||
    value == dollarSign

/-- `strings.ToLower` on bytes below 128. -/
def lowerByte (value : UInt8) : UInt8 :=
  if 'A'.toUInt8 ≤ value ∧ value ≤ 'Z'.toUInt8 then value + 32 else value

/-! ## Passing over strings and comments -/

def skipSQLLineComment (sql : Bytes) : Bytes := sql.dropWhile (· != newline)

def skipSQLBlockComment : Nat → Bytes → Bytes
  | 0, sql => sql
  | _ + 1, [] => []
  | _ + 1, [_] => []
  | depth + 1, c :: d :: sql =>
      if c = slash ∧ d = star then skipSQLBlockComment (depth + 2) sql
      else if c = star ∧ d = slash then skipSQLBlockComment depth sql
      else skipSQLBlockComment (depth + 1) (d :: sql)

/-- Reads up to a `quote` that is not doubled: the value, and the text behind it. -/
def readDoubled (quote : UInt8) : Bytes → Bytes × Bytes
  | [] => ([], [])
  | [c] => if c = quote then ([], []) else ([c], [])
  | c :: d :: sql =>
      if c = quote then
        if d = quote then
          let (value, rest) := readDoubled quote sql
          (quote :: value, rest)
        else ([], d :: sql)
      else
        let (value, rest) := readDoubled quote (d :: sql)
        (c :: value, rest)

def skipSQLSingleQuotedString (sql : Bytes) : Bytes := (readDoubled singleQuote sql).2

def readSQLQuotedIdentifier (sql : Bytes) : Bytes × Bytes := readDoubled doubleQuote sql

/-- The text behind the first occurrence of the delimiter. -/
def cutAfter (delimiter : Bytes) : Bytes → Option Bytes
  | [] => none
  | c :: sql =>
      if delimiter.isPrefixOf (c :: sql) then some ((c :: sql).drop delimiter.length)
      else cutAfter delimiter sql

/-- The text `sql` stands behind a dollar sign. -/
def skipSQLDollarQuotedString (sql : Bytes) : Option Bytes :=
  match sql.dropWhile isSQLDollarTagPart with
  | c :: body =>
      if c = dollarSign then
        let delimiter := dollarSign :: sql.takeWhile isSQLDollarTagPart ++ [dollarSign]
        some ((cutAfter delimiter body).getD [])
      else none
  | [] => none

/-! ## The tokens -/

/-- One round of `tokenizeSQLRelations`, for a text that begins with `c`. -/
def tokenStep (c : UInt8) (rest : Bytes) : List SqlRelationToken × Bytes :=
  if isSQLSpace c then ([], rest)
  else if c = dash ∧ rest.head? = some dash then ([], skipSQLLineComment rest.tail)
  else if c = slash ∧ rest.head? = some star then ([], skipSQLBlockComment 1 rest.tail)
  else if c = singleQuote then ([], skipSQLSingleQuotedString rest)
  else if c = doubleQuote then
    let (value, rest) := readSQLQuotedIdentifier rest
    ([⟨value, true, true⟩], rest)
  else if c = dollarSign then ([], (skipSQLDollarQuotedString rest).getD rest)
  else if isSQLIdentifierStart c then
    ([⟨(c :: rest.takeWhile isSQLIdentifierPart).map lowerByte, true, false⟩],
      rest.dropWhile isSQLIdentifierPart)
  else if c = dotByte ∨ c = parenByte then ([⟨[c], false, false⟩], rest)
  else ([], rest)

/-! One equation for each kind of round. -/

theorem tokenStep_space {c : UInt8} (rest : Bytes) (h : isSQLSpace c = true) :
    tokenStep c rest = ([], rest) := by
  rw [tokenStep, if_pos h]

theorem tokenStep_lineComment (rest : Bytes) :
    tokenStep dash (dash :: rest) = ([], skipSQLLineComment rest) := rfl

theorem tokenStep_blockComment (rest : Bytes) :
    tokenStep slash (star :: rest) = ([], skipSQLBlockComment 1 rest) := rfl

theorem tokenStep_string (rest : Bytes) :
    tokenStep singleQuote rest = ([], skipSQLSingleQuotedString rest) := rfl

theorem tokenStep_quoted (rest : Bytes) :
    tokenStep doubleQuote rest =
      ([⟨(readSQLQuotedIdentifier rest).1, true, true⟩], (readSQLQuotedIdentifier rest).2) :=
  rfl

theorem tokenStep_dollar (rest : Bytes) :
    tokenStep dollarSign rest = ([], (skipSQLDollarQuotedString rest).getD rest) := rfl

theorem tokenStep_mark {c : UInt8} (h : c = dotByte ∨ c = parenByte) (rest : Bytes) :
    tokenStep c rest = ([⟨[c], false, false⟩], rest) := by
  rcases h with rfl | rfl <;> rfl

/-- A byte that begins an identifier begins nothing else. -/
theorem special_of_start {c : UInt8} (h : isSQLIdentifierStart c = true) :
    isSQLSpace c = false ∧ c ≠ dash ∧ c ≠ slash ∧ c ≠ singleQuote ∧ c ≠ doubleQuote ∧
      c ≠ dollarSign := by
  have hne : ∀ d : UInt8, isSQLIdentifierStart d = false → c ≠ d := by
    rintro d hd rfl
    rw [hd] at h
    cases h
  refine ⟨?_, hne _ rfl, hne _ rfl, hne _ rfl, hne _ rfl, hne _ rfl⟩
  rw [isSQLSpace, List.contains_eq_mem, decide_eq_false_iff_not]
  intro hmem
  have hall : ∀ d ∈ ascii " \t\n\r\x0c", isSQLIdentifierStart d = false :=
    forall_mem_of_all (by decide)
  exact hne c (hall c hmem) rfl

theorem tokenStep_identifier {c : UInt8} (h : isSQLIdentifierStart c = true) (rest : Bytes) :
    tokenStep c rest =
      ([⟨(c :: rest.takeWhile isSQLIdentifierPart).map lowerByte, true, false⟩],
        rest.dropWhile isSQLIdentifierPart) := by
  obtain ⟨hspace, hdash, hslash, hsingle, hdouble, hdollar⟩ := special_of_start h
  simp [tokenStep, hspace, hdash, hslash, hsingle, hdouble, hdollar, h]

/-! A round leaves a rest of the text. -/

theorem skipSQLBlockComment_suffix (depth : Nat) (sql : Bytes) :
    skipSQLBlockComment depth sql <:+ sql := by
  fun_induction skipSQLBlockComment depth sql with
  | case1 sql => exact List.suffix_rfl
  | case2 depth => exact List.suffix_rfl
  | case3 depth c => exact List.nil_suffix
  | case4 depth c d sql h ih => exact ih.trans ⟨[c, d], rfl⟩
  | case5 depth c d sql h h' ih => exact ih.trans ⟨[c, d], rfl⟩
  | case6 depth c d sql h h' ih => exact ih.trans (List.suffix_cons c _)

theorem readDoubled_suffix (quote : UInt8) (sql : Bytes) :
    (readDoubled quote sql).2 <:+ sql := by
  fun_induction readDoubled quote sql with
  | case1 => exact List.suffix_rfl
  | case2 => exact List.nil_suffix
  | case3 => exact List.nil_suffix
  | case4 sql value rest h ih =>
      rw [h] at ih
      exact ih.trans ⟨[quote, quote], rfl⟩
  | case5 d sql h => exact List.suffix_cons _ _
  | case6 c d sql h value rest h' ih =>
      rw [h'] at ih
      exact ih.trans (List.suffix_cons c _)

theorem cutAfter_suffix {delimiter sql rest : Bytes} (h : cutAfter delimiter sql = some rest) :
    rest <:+ sql := by
  induction sql with
  | nil => cases h
  | cons c sql ih =>
      rw [cutAfter] at h
      split at h
      case isTrue =>
        cases h
        exact List.drop_suffix _ _
      case isFalse => exact (ih h).trans (List.suffix_cons c sql)

theorem skipSQLDollarQuotedString_suffix {sql rest : Bytes}
    (h : skipSQLDollarQuotedString sql = some rest) : rest <:+ sql := by
  unfold skipSQLDollarQuotedString at h
  split at h
  case h_1 c body hbody =>
    split at h
    case isTrue =>
      cases h
      have hsuffix : body <:+ sql := by
        refine (List.suffix_cons c body).trans ?_
        rw [← hbody]
        exact List.dropWhile_suffix _
      cases hcut : cutAfter _ body with
      | none => exact List.nil_suffix
      | some rest => exact (cutAfter_suffix hcut).trans hsuffix
    case isFalse => cases h
  case h_2 => cases h

theorem tokenStep_suffix (c : UInt8) (rest : Bytes) : (tokenStep c rest).2 <:+ rest := by
  unfold tokenStep
  split
  · exact List.suffix_rfl
  split
  · exact (List.dropWhile_suffix _).trans (List.tail_suffix rest)
  split
  · exact (skipSQLBlockComment_suffix _ _).trans (List.tail_suffix rest)
  split
  · exact readDoubled_suffix _ _
  split
  · exact readDoubled_suffix _ _
  split
  · dsimp only
    cases h : skipSQLDollarQuotedString rest with
    | none => exact List.suffix_rfl
    | some rest' => exact skipSQLDollarQuotedString_suffix h
  split
  · exact List.dropWhile_suffix _
  split
  · exact List.suffix_rfl
  · exact List.suffix_rfl

def sqlScanner : Scanner UInt8 SqlRelationToken := ⟨tokenStep, tokenStep_suffix⟩

theorem scan_of_tokenStep {c : UInt8} {rest rest' : Bytes} {tokens : List SqlRelationToken}
    (h : tokenStep c rest = (tokens, rest')) :
    sqlScanner.scan (c :: rest) = tokens ++ sqlScanner.scan rest' :=
  sqlScanner.scan_of_step h

def tokenizeSQLRelations (sql : Bytes) : List SqlRelationToken := sqlScanner.scan sql

/-! ## The relations -/

structure RelationIdentifier where
  catalog : Bytes
  schema : Bytes
  name : Bytes
  deriving DecidableEq, Repr

/-- `from`, `into`, `join` or `update`. -/
def SqlRelationToken.isKeyword (token : SqlRelationToken) : Bool :=
  token.identifier && !token.quoted &&
    (["from", "into", "join", "update"].map ascii).contains token.value

/-- `lateral` or `only`. -/
def SqlRelationToken.isModifier (token : SqlRelationToken) : Bool :=
  token.identifier && !token.quoted && (["lateral", "only"].map ascii).contains token.value

/-- At most `limit` further parts of a name. -/
def furtherParts : Nat → List SqlRelationToken → List Bytes
  | limit + 1, dot :: part :: tokens =>
      if dot.value = ascii "." ∧ part.identifier then part.value :: furtherParts limit tokens
      else []
  | _, _ => []

def relationIdentifier : List Bytes → Option RelationIdentifier
  | [name] => some ⟨[], [], name⟩
  | [schema, name] => some ⟨[], schema, name⟩
  | [catalog, schema, name] => some ⟨catalog, schema, name⟩
  | _ => none

/-- The relation that the tokens behind a keyword name. -/
def relationBehind (tokens : List SqlRelationToken) : Option RelationIdentifier :=
  match tokens.dropWhile SqlRelationToken.isModifier with
  | token :: tokens =>
      if token.identifier then relationIdentifier (token.value :: furtherParts 2 tokens)
      else none
  | [] => none

def relationsOf : List SqlRelationToken → List RelationIdentifier
  | [] => []
  | token :: tokens =>
      if token.isKeyword then (relationBehind tokens).toList ++ relationsOf tokens
      else relationsOf tokens

def queryRelationIdentifiers (sql : Bytes) : List RelationIdentifier :=
  relationsOf (tokenizeSQLRelations sql)

end PgMesh.Plugin
