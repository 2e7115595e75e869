import Mathlib.Algebra.Group.Nat.Even
import Mathlib.Data.List.DropRight
import PgMesh.Foundation.Regexp
import PgMesh.Plugin.Query

/-!
# Column patterns of overrides

An override with a `column` names columns by patterns with `*` and `?`.  The
plugin translates a pattern to a regular expression character by character.
A pattern is also a sequence of glob items, and a value matches it when it can be
shared out among them; the two readings agree.
-/

namespace PgMesh.Plugin

open PgMesh.Foundation

variable {ε : Type}

/-! ## The translation -/

/-- The loop of `compileMatchPattern`, with its variable `escaped`. -/
def matchExpression : Bool → List Char → Except (GoError ε) (List Char)
  | true, [] => .error (.new "unterminated escape at end of pattern")
  | false, [] => .ok []
  | true, char :: pattern =>
      if char = '*' ∨ char = '?' ∨ char = '\\' then
        (['\\', char] ++ ·) <$> matchExpression false pattern
      else .error (.errorf "invalid escaped character %q" [.text char.toString])
  | false, char :: pattern =>
      if char = '\\' then matchExpression true pattern
      else if char = '*' then (['.', '*'] ++ ·) <$> matchExpression false pattern
      else if char = '?' then (['.'] ++ ·) <$> matchExpression false pattern
      else (Regexp.quoteMeta char ++ ·) <$> matchExpression false pattern

def compileMatchPattern (pattern : String) : Except (GoError ε) (List Regexp.Item) := do
  let expression ← matchExpression false pattern.toList
  match Regexp.compile ('^' :: (expression ++ ['$'])) with
  | some compiled => .ok compiled
  | none => .error (.new "error parsing regexp")

def matchPattern (pattern value : String) : Bool :=
  match compileMatchPattern (ε := Empty) pattern with
  | .ok compiled => Regexp.matchString compiled value.toList
  | .error _ => false

/-! ## Column overrides -/

/-- The fields of an override that say which columns it is for. -/
structure Override where
  dbType : String := ""
  nullable : Bool := false
  unsigned : Bool := false
  column : String := ""
  columnName : String := ""
  tableCatalog : String := ""
  tableSchema : String := ""
  tableName : String := ""

def checkPatterns (column : String) : List String → Except (GoError ε) Unit
  | [] => .ok ()
  | pattern :: patterns =>
      if pattern = "" then checkPatterns column patterns
      else
        match compileMatchPattern (ε := ε) pattern with
        | .error err =>
            .error (.errorf "invalid column override %q: %w" [.text column, .wrapped err])
        | .ok _ => checkPatterns column patterns

def splitColumn (o : Override) (defaultSchema : String) : Except (GoError ε) Override :=
  match split o.column '.' with
  | [table, column] =>
      .ok { o with tableSchema := defaultSchema, tableName := table, columnName := column }
  | [schema, table, column] =>
      .ok { o with tableSchema := schema, tableName := table, columnName := column }
  | [catalog, schema, table, column] =>
      .ok { o with
        tableCatalog := catalog, tableSchema := schema, tableName := table, columnName := column }
  | _ => .error (.errorf "invalid column override %q" [.text o.column])

def parseColumn (o : Override) (catalogSchema : String) : Except (GoError ε) Override := do
  let parsed ← splitColumn o (if catalogSchema = "" then "public" else catalogSchema)
  checkPatterns parsed.column
    [parsed.tableCatalog, parsed.tableSchema, parsed.tableName, parsed.columnName]
  return parsed

def dataType (identifier : Identifier) : String :=
  if identifier.schema ≠ "" then identifier.schema ++ "." ++ identifier.name else identifier.name

def dbTypesEqual (configured actual defaultSchema : String) : Bool :=
  configured = actual ∨
    '.' ∉ actual.toList ∧ defaultSchema ≠ "" ∧ configured = defaultSchema ++ "." ++ actual

def matchesColumn (o : Override) (column : Column) (defaultSchema : String) : Bool :=
  if o.dbType ≠ "" then
    dbTypesEqual o.dbType (dataType column.type) defaultSchema &&
      o.nullable != (column.notNull || column.isArray) && o.unsigned == column.unsigned
  else if o.column = "" then false
  else
    match column.table with
    | none => false
    | some table =>
        let schema := if table.schema = "" then defaultSchema else table.schema
        let name := if column.originalName ≠ "" then column.originalName else column.name
        (o.tableCatalog == "" || matchPattern o.tableCatalog table.catalog) &&
          (matchPattern o.tableSchema schema && matchPattern o.tableName table.name &&
            matchPattern o.columnName name)

/-! ## Globs -/

inductive GlobItem where
  | literal (char : Char)
  | anyChar
  | anySequence
  deriving DecidableEq, Repr

/-- The items of a pattern: a backslash makes the character behind it a literal. -/
def globItems : List Char → List GlobItem
  | [] => []
  | '\\' :: char :: pattern => .literal char :: globItems pattern
  | '*' :: pattern => .anySequence :: globItems pattern
  | '?' :: pattern => .anyChar :: globItems pattern
  | char :: pattern => .literal char :: globItems pattern

/-- What an item takes of a value. -/
def GlobItem.Takes : GlobItem → List Char → Prop
  | .literal char, part => part = [char]
  | .anyChar, part => ∃ c, part = [c] ∧ c ≠ '\n'
  | .anySequence, part => ∀ c ∈ part, c ≠ '\n'

/-- The whole value is shared out among the items of the pattern. -/
def GlobMatches (pattern value : String) : Prop :=
  ∃ parts, List.Forall₂ GlobItem.Takes (globItems pattern.toList) parts ∧
    value.toList = parts.flatten

/-- The number of backslashes at the end of a text. -/
def trailingBackslashes (text : List Char) : Nat := (text.rtakeWhile (· == '\\')).length

/--
A backslash that is not itself escaped, with a character behind it that is not to
be escaped or with nothing behind it.
-/
def MalformedPattern (pattern : List Char) : Prop :=
  ∃ before behind, pattern = before ++ '\\' :: behind ∧ Even (trailingBackslashes before) ∧
    ∀ char ∈ behind.head?, char ≠ '*' ∧ char ≠ '?' ∧ char ≠ '\\'

/-! ## Malformed patterns -/

/-- Patterns are read by single characters, except that a backslash goes with the next one. -/
theorem pattern_induction {P : List Char → Prop} (nil : P []) (lone : P ['\\'])
    (escape : ∀ char pattern, P pattern → P ('\\' :: char :: pattern))
    (plain : ∀ char pattern, char ≠ '\\' → P pattern → P (char :: pattern)) :
    ∀ pattern, P pattern
  | [] => nil
  | [char] => by
      by_cases hchar : char = '\\'
      · rw [hchar]
        exact lone
      · exact plain char [] hchar nil
  | char :: next :: pattern => by
      by_cases hchar : char = '\\'
      · rw [hchar]
        exact escape next pattern (pattern_induction nil lone escape plain pattern)
      · exact plain char (next :: pattern) hchar
          (pattern_induction nil lone escape plain (next :: pattern))

theorem trailingBackslashes_cons_of_exists {text : List Char} (h : ∃ c ∈ text, c ≠ '\\')
    (char : Char) : trailingBackslashes (char :: text) = trailingBackslashes text := by
  obtain ⟨c, hc, hne⟩ := h
  have hall : (text.reverse.takeWhile (· == '\\')).length ≠ text.reverse.length := by
    intro hlength
    have htake := (List.takeWhile_prefix (· == '\\')).eq_of_length hlength
    rw [List.takeWhile_eq_self_iff] at htake
    exact hne (by simpa using htake c (List.mem_reverse.mpr hc))
  rw [trailingBackslashes, trailingBackslashes, List.rtakeWhile, List.rtakeWhile,
    List.reverse_cons, List.takeWhile_append, if_neg hall]

theorem trailingBackslashes_replicate (n : Nat) :
    trailingBackslashes (List.replicate n '\\') = n := by
  simp [trailingBackslashes, List.rtakeWhile]

theorem trailingBackslashes_cons_of_ne {char : Char} (h : char ≠ '\\') (text : List Char) :
    trailingBackslashes (char :: text) = trailingBackslashes text := by
  by_cases hexists : ∃ c ∈ text, c ≠ '\\'
  · exact trailingBackslashes_cons_of_exists hexists char
  · have hall : ∀ c ∈ text, c = '\\' := by
      simpa using hexists
    rw [List.eq_replicate_of_mem hall, trailingBackslashes_replicate]
    simp [trailingBackslashes, List.rtakeWhile, h]

/-- A backslash together with the character that it escapes does not change the parity. -/
theorem even_trailingBackslashes_escape (char : Char) (text : List Char) :
    Even (trailingBackslashes ('\\' :: char :: text)) ↔ Even (trailingBackslashes text) := by
  by_cases hchar : char = '\\'
  · by_cases hexists : ∃ c ∈ text, c ≠ '\\'
    · obtain ⟨c, hc, hne⟩ := hexists
      rw [trailingBackslashes_cons_of_exists ⟨c, List.mem_cons_of_mem _ hc, hne⟩,
        trailingBackslashes_cons_of_exists ⟨c, hc, hne⟩]
    · have hall : ∀ c ∈ text, c = '\\' := by
        simpa using hexists
      rw [hchar, List.eq_replicate_of_mem hall, ← List.replicate_succ, ← List.replicate_succ,
        trailingBackslashes_replicate, trailingBackslashes_replicate]
      simp [Nat.even_add_one]
  · rw [trailingBackslashes_cons_of_exists ⟨char, List.mem_cons_self, hchar⟩,
      trailingBackslashes_cons_of_ne hchar]

theorem not_malformed_nil : ¬ MalformedPattern [] := by
  rintro ⟨before, behind, happend, -, -⟩
  simp at happend

theorem malformed_lone : MalformedPattern ['\\'] := ⟨[], [], rfl, by decide, by simp⟩

theorem malformed_plain_iff {char : Char} (h : char ≠ '\\') (pattern : List Char) :
    MalformedPattern (char :: pattern) ↔ MalformedPattern pattern := by
  constructor
  · rintro ⟨before, behind, happend, heven, hbehind⟩
    cases before with
    | nil => exact absurd (List.cons.inj happend).1 h
    | cons c before =>
        obtain ⟨rfl, rfl⟩ := List.cons.inj happend
        rw [trailingBackslashes_cons_of_ne h] at heven
        exact ⟨before, behind, rfl, heven, hbehind⟩
  · rintro ⟨before, behind, rfl, heven, hbehind⟩
    refine ⟨char :: before, behind, rfl, ?_, hbehind⟩
    rwa [trailingBackslashes_cons_of_ne h]

theorem malformed_escape_iff (char : Char) (pattern : List Char) :
    MalformedPattern ('\\' :: char :: pattern) ↔
      ¬ (char = '*' ∨ char = '?' ∨ char = '\\') ∨ MalformedPattern pattern := by
  constructor
  · rintro ⟨before, behind, happend, heven, hbehind⟩
    match before with
    | [] =>
        left
        rw [List.nil_append] at happend
        obtain ⟨-, rfl⟩ := List.cons.inj happend
        simpa [not_or] using hbehind
    | [c] =>
        -- the second of two backslashes is escaped
        obtain ⟨rfl, -⟩ := List.cons.inj happend
        exact absurd heven (by decide)
    | c :: d :: before =>
        right
        obtain ⟨rfl, htail⟩ := List.cons.inj happend
        obtain ⟨rfl, rfl⟩ := List.cons.inj htail
        rw [even_trailingBackslashes_escape] at heven
        exact ⟨before, behind, rfl, heven, hbehind⟩
  · rintro (hchar | ⟨before, behind, rfl, heven, hbehind⟩)
    · exact ⟨[], char :: pattern, rfl, by decide, by simpa [not_or] using hchar⟩
    · refine ⟨'\\' :: char :: before, behind, rfl, ?_, hbehind⟩
      rwa [even_trailingBackslashes_escape]

/-! ## The translation is right -/

def GlobItem.piece : GlobItem → Regexp.Piece
  | .literal char => .one (.literal char)
  | .anyChar => .one .any
  | .anySequence => .many .any

def GlobItem.tokens : GlobItem → List Regexp.Token
  | .literal char => [.set (.literal char)]
  | .anyChar => [.set .any]
  | .anySequence => [.set .any, .star]

theorem GlobItem.takes_piece (item : GlobItem) (part : List Char) :
    item.piece.Takes part ↔ item.Takes part := by
  cases item <;> simp [GlobItem.piece, GlobItem.Takes, Regexp.Piece.Takes, Regexp.CharSet.accepts]

theorem globItems_plain {char : Char} (h : char ≠ '\\') (pattern : List Char) :
    globItems (char :: pattern) = globItems [char] ++ globItems pattern := by
  by_cases hstar : char = '*'
  · rw [hstar]
    rfl
  · by_cases hquestion : char = '?'
    · rw [hquestion]
      rfl
    · simp [globItems, h]

/-- The text written for a pattern, whatever follows it, is read as the pattern's items. -/
def Renders (items : List GlobItem) (expression : List Char) : Prop :=
  ∀ rest, Regexp.tokens false (expression ++ rest) =
    (Regexp.tokens false rest).map (items.flatMap GlobItem.tokens ++ ·)

theorem Renders.append {items more : List GlobItem} {expression next : List Char}
    (h : Renders items expression) (hnext : Renders more next) :
    Renders (items ++ more) (expression ++ next) := by
  intro rest
  rw [List.append_assoc, h, hnext, Option.map_map]
  simp [Function.comp_def]

theorem renders_literal (char : Char) : Renders [.literal char] (Regexp.quoteMeta char) := by
  intro rest
  exact Regexp.tokens_quoteMeta char rest

theorem renders_anyChar : Renders [.anyChar] ['.'] := by
  intro rest
  simp [Regexp.tokens, Regexp.plainToken, GlobItem.tokens]

theorem renders_anySequence : Renders [.anySequence] ['.', '*'] := by
  intro rest
  simp [Regexp.tokens, Regexp.plainToken, GlobItem.tokens, Function.comp_def]

theorem matchExpression_plain {char : Char} (h : char ≠ '\\') :
    ∃ written, Renders (globItems [char]) written ∧ ∀ pattern,
      matchExpression (ε := ε) false (char :: pattern) =
        (written ++ ·) <$> matchExpression false pattern := by
  by_cases hstar : char = '*'
  · subst hstar
    exact ⟨['.', '*'], renders_anySequence, fun pattern => by simp [matchExpression]⟩
  · by_cases hquestion : char = '?'
    · subst hquestion
      exact ⟨['.'], renders_anyChar, fun pattern => by simp [matchExpression]⟩
    · have hitems : globItems [char] = [.literal char] := by
        simp [globItems]
      exact ⟨Regexp.quoteMeta char, hitems ▸ renders_literal char,
        by simp [matchExpression, h, hstar, hquestion]⟩

/-- The loop writes an expression for the items, or finds the pattern malformed. -/
theorem matchExpression_spec (pattern : List Char) :
    (MalformedPattern pattern ∧ ∃ err, matchExpression (ε := ε) false pattern = .error err) ∨
      (¬ MalformedPattern pattern ∧
        ∃ expression, matchExpression (ε := ε) false pattern = .ok expression ∧
          Renders (globItems pattern) expression) := by
  induction pattern using pattern_induction with
  | nil => exact .inr ⟨not_malformed_nil, [], rfl, fun rest => by simp [globItems]⟩
  | lone => exact .inl ⟨malformed_lone, _, rfl⟩
  | escape char pattern ih =>
      rw [malformed_escape_iff]
      by_cases hchar : char = '*' ∨ char = '?' ∨ char = '\\'
      · have hquoted : Regexp.quoteMeta char = ['\\', char] := by
          rcases hchar with rfl | rfl | rfl <;> decide
        have hloop : matchExpression (ε := ε) false ('\\' :: char :: pattern) =
            (['\\', char] ++ ·) <$> matchExpression false pattern := by
          simp [matchExpression, hchar]
        rcases ih with ⟨hmalformed, err, herr⟩ | ⟨hwell, expression, hok, hrenders⟩
        · exact .inl ⟨.inr hmalformed, err, by rw [hloop, herr]; rfl⟩
        · refine .inr ⟨by simp [hchar, hwell], ['\\', char] ++ expression,
            by rw [hloop, hok]; rfl, ?_⟩
          rw [← hquoted]
          exact (renders_literal char).append hrenders
      · refine .inl ⟨.inl hchar, .errorf "invalid escaped character %q" [.text char.toString], ?_⟩
        simp [matchExpression, hchar]
  | plain char pattern hchar ih =>
      obtain ⟨written, hwritten, hloop⟩ := matchExpression_plain (ε := ε) hchar
      rw [malformed_plain_iff hchar, hloop, globItems_plain hchar]
      rcases ih with ⟨hmalformed, err, herr⟩ | ⟨hwell, expression, hok, hrenders⟩
      · exact .inl ⟨hmalformed, err, by rw [herr]; rfl⟩
      · exact .inr ⟨hwell, written ++ expression, by rw [hok]; rfl, hwritten.append hrenders⟩

theorem items_set {s : Regexp.CharSet} {rest : List Regexp.Token}
    (h : rest.head? ≠ some .star) :
    Regexp.items (.set s :: rest) = (Regexp.items rest).map (.piece (.one s) :: ·) := by
  cases rest with
  | nil => rfl
  | cons token rest =>
      cases token with
      | star => exact absurd rfl h
      | _ => rfl

theorem items_globs (items : List GlobItem) :
    Regexp.items (items.flatMap GlobItem.tokens ++ [.finish]) =
      some ((items.map GlobItem.piece).map .piece ++ [.finish]) := by
  have hhead : ∀ items : List GlobItem,
      (items.flatMap GlobItem.tokens ++ [Regexp.Token.finish]).head? ≠ some .star := by
    intro items
    cases items with
    | nil => simp
    | cons item items => cases item <;> simp [GlobItem.tokens]
  induction items with
  | nil => rfl
  | cons item items ih =>
      rw [List.flatMap_cons, List.append_assoc]
      cases item with
      | literal char =>
          rw [GlobItem.tokens, List.singleton_append, items_set (hhead items), ih]
          rfl
      | anyChar =>
          rw [GlobItem.tokens, List.singleton_append, items_set (hhead items), ih]
          rfl
      | anySequence =>
          rw [GlobItem.tokens, List.cons_append, List.singleton_append, Regexp.items, ih]
          rfl

theorem compile_renders {items : List GlobItem} {expression : List Char}
    (h : Renders items expression) :
    Regexp.compile ('^' :: (expression ++ ['$'])) =
      some (Regexp.anchored (items.map GlobItem.piece)) := by
  have htokens : Regexp.tokens false ('^' :: (expression ++ ['$'])) =
      some (.begin :: (items.flatMap GlobItem.tokens ++ [.finish])) := by
    simp [Regexp.tokens, Regexp.plainToken, h ['$']]
  rw [Regexp.compile, htokens, Option.bind_some, Regexp.items, items_globs]
  rfl

theorem compileMatchPattern_spec (pattern : String) :
    (MalformedPattern pattern.toList ∧
        ∃ err, compileMatchPattern (ε := ε) pattern = .error err) ∨
      (¬ MalformedPattern pattern.toList ∧ compileMatchPattern (ε := ε) pattern =
        .ok (Regexp.anchored ((globItems pattern.toList).map GlobItem.piece))) := by
  rcases matchExpression_spec (ε := ε) pattern.toList with
    ⟨hmalformed, err, herr⟩ | ⟨hwell, expression, hok, hrenders⟩
  · refine .inl ⟨hmalformed, err, ?_⟩
    rw [compileMatchPattern, herr]
    rfl
  · refine .inr ⟨hwell, ?_⟩
    rw [compileMatchPattern, hok]
    change (match Regexp.compile ('^' :: (expression ++ ['$'])) with
      | some compiled => Except.ok compiled
      | none => _) = _
    rw [compile_renders hrenders]

theorem matchString_globs_iff (items : List GlobItem) (text : List Char) :
    Regexp.matchString (Regexp.anchored (items.map GlobItem.piece)) text = true ↔
      ∃ parts, List.Forall₂ GlobItem.Takes items parts ∧ text = parts.flatten := by
  rw [Regexp.matchString_anchored_iff]
  simp only [List.forall₂_map_left_iff, GlobItem.takes_piece]

theorem matchPattern_iff {pattern : String} (h : ¬ MalformedPattern pattern.toList)
    (value : String) : matchPattern pattern value = true ↔ GlobMatches pattern value := by
  rcases compileMatchPattern_spec (ε := Empty) pattern with ⟨hmalformed, -⟩ | ⟨-, hok⟩
  · exact absurd hmalformed h
  · rw [matchPattern, hok]
    exact matchString_globs_iff _ _

/--
A pattern is refused exactly when a backslash escapes nothing that may be escaped;
every other pattern matches the values that its glob matches.
-/
theorem column_patterns_are_globs (pattern value : String) :
    ((∃ err, compileMatchPattern (ε := ε) pattern = .error err) ↔
        MalformedPattern pattern.toList) ∧
      (¬ MalformedPattern pattern.toList →
        (matchPattern pattern value = true ↔ GlobMatches pattern value)) := by
  constructor
  · rcases compileMatchPattern_spec (ε := ε) pattern with ⟨hmalformed, herr⟩ | ⟨hwell, hok⟩
    · exact iff_of_true herr hmalformed
    · refine iff_of_false ?_ hwell
      rintro ⟨err, herr⟩
      rw [hok] at herr
      cases herr
  · intro hwell
    exact matchPattern_iff hwell value

/-! ## The columns of an override -/

theorem checkPatterns_ok {column : String} {patterns : List String}
    (h : checkPatterns (ε := ε) column patterns = .ok ()) :
    ∀ pattern ∈ patterns, ¬ MalformedPattern pattern.toList := by
  induction patterns with
  | nil => simp
  | cons pattern patterns ih =>
      rw [List.forall_mem_cons]
      rw [checkPatterns] at h
      split at h
      case isTrue hempty =>
        refine ⟨?_, ih h⟩
        rw [hempty]
        exact not_malformed_nil
      case isFalse =>
        rcases compileMatchPattern_spec (ε := ε) pattern with ⟨-, err, herr⟩ | ⟨hwell, hok⟩
        · rw [herr] at h
          cases h
        · rw [hok] at h
          exact ⟨hwell, ih h⟩

theorem parseColumn_ok {o parsed : Override} {catalogSchema : String}
    (h : parseColumn (ε := ε) o catalogSchema = .ok parsed) :
    ∀ pattern ∈ [parsed.tableCatalog, parsed.tableSchema, parsed.tableName, parsed.columnName],
      ¬ MalformedPattern pattern.toList := by
  obtain ⟨split, -, hrest⟩ := bind_eq_ok.mp h
  obtain ⟨done, hchecked, hparsed⟩ := bind_eq_ok.mp hrest
  cases hparsed
  exact checkPatterns_ok hchecked

/-- An accepted column override is for the columns whose names match its globs. -/
theorem matchesColumn_iff_globs {o parsed : Override} {catalogSchema : String}
    (h : parseColumn (ε := ε) o catalogSchema = .ok parsed) (hdbType : parsed.dbType = "")
    (hcolumn : parsed.column ≠ "") (column : Column) (defaultSchema : String) :
    matchesColumn parsed column defaultSchema = true ↔
      ∃ table, column.table = some table ∧
        (parsed.tableCatalog ≠ "" → GlobMatches parsed.tableCatalog table.catalog) ∧
        GlobMatches parsed.tableSchema
          (if table.schema = "" then defaultSchema else table.schema) ∧
        GlobMatches parsed.tableName table.name ∧
        GlobMatches parsed.columnName
          (if column.originalName ≠ "" then column.originalName else column.name) := by
  have hwell := parseColumn_ok h
  simp only [List.forall_mem_cons] at hwell
  obtain ⟨hcatalog, hschema, htable, hname, -⟩ := hwell
  rw [matchesColumn, if_neg (by simp [hdbType]), if_neg hcolumn]
  cases column.table with
  | none => simp
  | some table =>
      simp only [Bool.and_eq_true, Bool.or_eq_true, beq_iff_eq, matchPattern_iff hcatalog,
        matchPattern_iff hschema, matchPattern_iff htable, matchPattern_iff hname,
        Option.some.injEq, exists_eq_left', and_assoc, or_iff_not_imp_left]

end PgMesh.Plugin
