import PgMesh.Plugin.Relations

/-!
# Rendered texts

A text that is written from lexemes, with white space between them, is split into
the identifiers, dots and parentheses among them.
-/

namespace PgMesh.Plugin

open PgMesh.Foundation

/-! ## Lexemes -/

/-- A value between quotes, with the quotes in it doubled. -/
def doubled (quote : UInt8) (value : Bytes) : Bytes :=
  value.flatMap fun c => if c = quote then [quote, quote] else [c]

def dollarDelimiter (tag : Bytes) : Bytes := dollarSign :: tag ++ [dollarSign]

/-- What stands inside of `depth` nested comments, up to the end of the outermost. -/
inductive CommentTail : Nat → Bytes → Prop where
  | done : CommentTail 0 []
  | opens {depth : Nat} {text : Bytes} (h : CommentTail (depth + 2) text) :
      CommentTail (depth + 1) (slash :: star :: text)
  | closes {depth : Nat} {text : Bytes} (h : CommentTail depth text) :
      CommentTail (depth + 1) (star :: slash :: text)
  | other {depth : Nat} {c d : UInt8} {text : Bytes} (hopen : ¬ (c = slash ∧ d = star))
      (hclose : ¬ (c = star ∧ d = slash)) (h : CommentTail (depth + 1) (d :: text)) :
      CommentTail (depth + 1) (c :: d :: text)

inductive SqlLexeme where
  | identifier (first : UInt8) (rest : Bytes) (hfirst : isSQLIdentifierStart first = true)
      (hrest : ∀ c ∈ rest, isSQLIdentifierPart c = true)
  | quotedIdentifier (value : Bytes)
  | dot
  | paren
  | string (value : Bytes)
  /-- The delimiter stands behind the body for the first time. -/
  | dollarString (tag body : Bytes) (htag : ∀ c ∈ tag, isSQLDollarTagPart c = true)
      (hbody : ∀ before after, body ++ dollarDelimiter tag =
        before ++ dollarDelimiter tag ++ after → after = [])
  | blockComment (tail : Bytes) (htail : CommentTail 1 tail)
  | lineComment (text : Bytes) (htext : newline ∉ text)

namespace SqlLexeme

def render : SqlLexeme → Bytes
  | .identifier first rest _ _ => first :: rest
  | .quotedIdentifier value => doubleQuote :: doubled doubleQuote value ++ [doubleQuote]
  | .dot => [dotByte]
  | .paren => [parenByte]
  | .string value => singleQuote :: doubled singleQuote value ++ [singleQuote]
  | .dollarString tag body _ _ => dollarDelimiter tag ++ body ++ dollarDelimiter tag
  | .blockComment tail _ => slash :: star :: tail
  | .lineComment text _ => dash :: dash :: text ++ [newline]

/-- What the tokenizer reports of a lexeme. -/
def token : SqlLexeme → Option SqlRelationToken
  | .identifier first rest _ _ => some ⟨(first :: rest).map lowerByte, true, false⟩
  | .quotedIdentifier value => some ⟨value, true, true⟩
  | .dot => some ⟨[dotByte], false, false⟩
  | .paren => some ⟨[parenByte], false, false⟩
  | .string _ | .dollarString .. | .blockComment .. | .lineComment .. => none

end SqlLexeme

/-- White space of SQL; the tokenizer itself does not know the vertical tab. -/
def isWhite (value : UInt8) : Bool := (ascii " \t\n\r\x0b\x0c").contains value

/-- Lexemes with white space in front of the first and behind each of them. -/
structure SqlText where
  lead : Bytes
  items : List (SqlLexeme × Bytes)
  lead_white : ∀ c ∈ lead, isWhite c = true
  gap_white : ∀ item ∈ items, ∀ c ∈ item.2, isWhite c = true
  separated : ∀ item ∈ items.dropLast, item.2 ≠ []

def SqlText.render (text : SqlText) : Bytes :=
  text.lead ++ text.items.flatMap fun item => item.1.render ++ item.2

/-! ## Reading one lexeme -/

/-- The byte behind a lexeme, if there is one, is white space. -/
def Delimited (after : Bytes) : Prop := ∀ c ∈ after.head?, isWhite c = true

theorem Delimited.head_ne {after : Bytes} (h : Delimited after) {d : UInt8}
    (hd : isWhite d = false) : after.head? ≠ some d := by
  intro hhead
  rw [h d hhead] at hd
  cases hd

theorem isSQLIdentifierPart_of_white {c : UInt8} (h : isWhite c = true) :
    isSQLIdentifierPart c = false := by
  have hall : ∀ d ∈ ascii " \t\n\r\x0b\x0c", isSQLIdentifierPart d = false :=
    forall_mem_of_all (by decide)
  exact hall c (by simpa [isWhite] using h)

theorem tokenStep_white {c : UInt8} (h : isWhite c = true) (rest : Bytes) :
    tokenStep c rest = ([], rest) := by
  have hall : ∀ d ∈ ascii " \t\n\r\x0b\x0c", isSQLSpace d = true ∨ d = 11 :=
    forall_mem_of_all (by decide)
  rcases hall c (by simpa [isWhite] using h) with hspace | rfl
  · exact tokenStep_space rest hspace
  · rfl

theorem readDoubled_cons {quote c : UInt8} (hc : c ≠ quote) (sql : Bytes) :
    readDoubled quote (c :: sql) =
      (c :: (readDoubled quote sql).1, (readDoubled quote sql).2) := by
  cases sql with
  | nil => simp [readDoubled, hc]
  | cons d sql => simp [readDoubled, hc]

theorem readDoubled_pair (quote : UInt8) (sql : Bytes) :
    readDoubled quote (quote :: quote :: sql) =
      (quote :: (readDoubled quote sql).1, (readDoubled quote sql).2) := by
  simp [readDoubled]

theorem readDoubled_close {quote : UInt8} {sql : Bytes} (h : sql.head? ≠ some quote) :
    readDoubled quote (quote :: sql) = ([], sql) := by
  cases sql with
  | nil => simp [readDoubled]
  | cons d sql =>
      have hd : d ≠ quote := by simpa using h
      simp [readDoubled, hd]

theorem readDoubled_doubled {quote : UInt8} (value : Bytes) {after : Bytes}
    (h : after.head? ≠ some quote) :
    readDoubled quote (doubled quote value ++ quote :: after) = (value, after) := by
  induction value with
  | nil => exact readDoubled_close h
  | cons c value ih =>
      unfold doubled at ih ⊢
      rw [List.flatMap_cons]
      split
      case isTrue hc =>
        rw [List.append_assoc, List.cons_append, List.cons_append, List.nil_append,
          readDoubled_pair, ih, hc]
      case isFalse hc =>
        rw [List.append_assoc, List.singleton_append, readDoubled_cons hc, ih]

theorem CommentTail.skip {depth : Nat} {tail : Bytes} (h : CommentTail depth tail)
    (after : Bytes) : skipSQLBlockComment depth (tail ++ after) = after := by
  induction h with
  | done => exact skipSQLBlockComment.eq_1 after
  | opens h ih => simpa [skipSQLBlockComment] using ih
  | closes h ih =>
      have hne : ¬ (star = slash ∧ slash = star) := by decide
      simpa [skipSQLBlockComment, hne] using ih
  | other hopen hclose h ih =>
      rw [List.cons_append, List.cons_append, skipSQLBlockComment, if_neg hopen, if_neg hclose]
      exact ih

theorem cutAfter_append {delimiter body : Bytes} (hne : delimiter ≠ [])
    (hbody : ∀ before after, body ++ delimiter = before ++ delimiter ++ after → after = [])
    (after : Bytes) : cutAfter delimiter (body ++ delimiter ++ after) = some after := by
  induction body with
  | nil =>
      obtain ⟨c, rest, rfl⟩ := List.exists_cons_of_ne_nil hne
      simp [cutAfter]
  | cons c body ih =>
      have hnot : ¬ delimiter <+: c :: (body ++ delimiter ++ after) := by
        intro hstart
        -- The occurrence would lie within the body and the delimiter behind it.
        have hinside : delimiter <+: c :: (body ++ delimiter) := by
          have hwhole : c :: (body ++ delimiter) <+: c :: (body ++ delimiter ++ after) :=
            ⟨after, by simp⟩
          refine List.prefix_of_prefix_length_le hstart hwhole ?_
          simp
          omega
        obtain ⟨rest, hrest⟩ := hinside
        have hnil := hbody [] rest (by simpa using hrest.symm)
        have hlength := congrArg List.length hrest
        simp [hnil] at hlength
        omega
      rw [List.cons_append, List.cons_append, cutAfter, if_neg (by simpa using hnot)]
      refine ih fun before after' h => hbody (c :: before) after' ?_
      simp [h]

theorem skipSQLDollarQuotedString_of_body {tag body : Bytes}
    (htag : ∀ c ∈ tag, isSQLDollarTagPart c = true)
    (hbody : ∀ before after, body ++ dollarDelimiter tag =
      before ++ dollarDelimiter tag ++ after → after = []) (after : Bytes) :
    skipSQLDollarQuotedString
      (tag ++ dollarSign :: (body ++ dollarDelimiter tag ++ after)) = some after := by
  have hdrop : ∀ rest, (tag ++ dollarSign :: rest).dropWhile isSQLDollarTagPart =
      dollarSign :: rest := by
    intro rest
    rw [List.dropWhile_append_of_pos htag]
    rfl
  have htake : ∀ rest, (tag ++ dollarSign :: rest).takeWhile isSQLDollarTagPart = tag := by
    intro rest
    rw [List.takeWhile_append_of_pos htag]
    simp [show isSQLDollarTagPart dollarSign = false from rfl]
  unfold skipSQLDollarQuotedString
  rw [hdrop, htake]
  have hcut := cutAfter_append (by simp [dollarDelimiter]) hbody after
  simp only [if_true]
  rw [← dollarDelimiter, hcut]
  rfl

theorem takeWhile_identifier {rest after : Bytes}
    (hrest : ∀ c ∈ rest, isSQLIdentifierPart c = true) (hafter : Delimited after) :
    (rest ++ after).takeWhile isSQLIdentifierPart = rest ∧
      (rest ++ after).dropWhile isSQLIdentifierPart = after := by
  rw [List.takeWhile_append_of_pos hrest, List.dropWhile_append_of_pos hrest]
  cases after with
  | nil => simp
  | cons c after =>
      have hc := isSQLIdentifierPart_of_white (hafter c rfl)
      simp [hc]

/-- A lexeme is read up to its end. -/
theorem scan_lexeme (l : SqlLexeme) {after : Bytes} (hafter : Delimited after) :
    sqlScanner.scan (l.render ++ after) = l.token.toList ++ sqlScanner.scan after := by
  cases l with
  | identifier first rest hfirst hrest =>
      obtain ⟨htake, hdrop⟩ := takeWhile_identifier hrest hafter
      have hstep := tokenStep_identifier hfirst (rest ++ after)
      rw [htake, hdrop] at hstep
      exact scan_of_tokenStep hstep
  | quotedIdentifier value =>
      have hread := readDoubled_doubled value (hafter.head_ne (d := doubleQuote) rfl)
      have hstep := tokenStep_quoted (doubled doubleQuote value ++ doubleQuote :: after)
      rw [readSQLQuotedIdentifier, hread] at hstep
      rw [SqlLexeme.render, List.cons_append, List.cons_append, List.append_assoc,
        List.singleton_append]
      exact scan_of_tokenStep hstep
  | dot => exact scan_of_tokenStep (tokenStep_mark (.inl rfl) after)
  | paren => exact scan_of_tokenStep (tokenStep_mark (.inr rfl) after)
  | string value =>
      have hread := readDoubled_doubled value (hafter.head_ne (d := singleQuote) rfl)
      have hstep := tokenStep_string (doubled singleQuote value ++ singleQuote :: after)
      rw [skipSQLSingleQuotedString, hread] at hstep
      rw [SqlLexeme.render, List.cons_append, List.cons_append, List.append_assoc,
        List.singleton_append]
      exact scan_of_tokenStep hstep
  | dollarString tag body htag hbody =>
      have hskip := skipSQLDollarQuotedString_of_body htag hbody after
      have hstep := tokenStep_dollar
        (tag ++ dollarSign :: (body ++ dollarDelimiter tag ++ after))
      rw [hskip] at hstep
      have htext : dollarDelimiter tag ++ body ++ dollarDelimiter tag ++ after =
          dollarSign :: (tag ++ dollarSign :: (body ++ dollarDelimiter tag ++ after)) := by
        simp [dollarDelimiter]
      rw [SqlLexeme.render, htext]
      exact scan_of_tokenStep hstep
  | blockComment tail htail =>
      have hstep := tokenStep_blockComment (tail ++ after)
      rw [htail.skip] at hstep
      exact scan_of_tokenStep hstep
  | lineComment text htext =>
      have hskip : skipSQLLineComment (text ++ newline :: after) = newline :: after := by
        have hpos : ∀ c ∈ text, (c != newline) = true := by
          intro c hc
          simpa using fun h : c = newline => htext (h ▸ hc)
        rw [skipSQLLineComment, List.dropWhile_append_of_pos hpos]
        rfl
      have hstep := tokenStep_lineComment (text ++ newline :: after)
      rw [hskip] at hstep
      rw [SqlLexeme.render, List.cons_append, List.cons_append, List.append_assoc,
        List.singleton_append]
      exact (scan_of_tokenStep hstep).trans
        (scan_of_tokenStep (tokenStep_space after rfl))

/-! ## Reading a text -/

theorem scan_white {gap : Bytes} (hgap : ∀ c ∈ gap, isWhite c = true) (after : Bytes) :
    sqlScanner.scan (gap ++ after) = sqlScanner.scan after := by
  induction gap with
  | nil => rfl
  | cons c gap ih =>
      obtain ⟨hc, hgap⟩ := List.forall_mem_cons.mp hgap
      exact (scan_of_tokenStep (tokenStep_white hc _)).trans (ih hgap)

theorem scan_items {items : List (SqlLexeme × Bytes)}
    (hwhite : ∀ item ∈ items, ∀ c ∈ item.2, isWhite c = true)
    (hseparated : ∀ item ∈ items.dropLast, item.2 ≠ []) :
    sqlScanner.scan (items.flatMap fun item => item.1.render ++ item.2) =
      items.filterMap fun item => item.1.token := by
  induction items with
  | nil => exact sqlScanner.scan_nil
  | cons item items ih =>
      obtain ⟨hgap, hwhite⟩ := List.forall_mem_cons.mp hwhite
      have hrest : ∀ item ∈ items.dropLast, item.2 ≠ [] := by
        intro other hother
        cases items with
        | nil => cases hother
        | cons next items =>
            exact hseparated other (List.mem_cons_of_mem item hother)
      -- White space follows, unless this is the last lexeme.
      have hdelimited : Delimited (item.2 ++ items.flatMap fun item =>
          item.1.render ++ item.2) := by
        intro c hc
        cases hitem : item.2 with
        | cons d gap =>
            rw [hitem] at hc hgap
            rw [List.cons_append, List.head?_cons, Option.mem_some_iff] at hc
            exact hgap c (by simp [hc])
        | nil =>
            cases items with
            | nil =>
                rw [hitem] at hc
                cases hc
            | cons next items => exact absurd hitem (hseparated item List.mem_cons_self)
      rw [List.flatMap_cons, List.append_assoc, scan_lexeme item.1 hdelimited,
        scan_white hgap, ih hwhite hrest]
      cases htoken : item.1.token <;> simp [htoken]

/--
The loop ends, its index growing from round to round, and a rendered text is read
as the identifiers, dots and parentheses it was written from.
-/
theorem tokenizer_inverts_rendering :
    (∀ sql, (sqlScanner.indices sql).Pairwise (· < ·) ∧
        (∀ i ∈ sqlScanner.indices sql, i < sql.length) ∧ sqlScanner.Arrives sql []) ∧
      ∀ text : SqlText, tokenizeSQLRelations text.render =
        text.items.filterMap fun item => item.1.token := by
  refine ⟨fun sql => ⟨sqlScanner.indices_increase sql, sqlScanner.indices_lt sql,
    sqlScanner.arrives_nil sql⟩, fun text => ?_⟩
  rw [tokenizeSQLRelations, SqlText.render, scan_white text.lead_white,
    scan_items text.gap_white text.separated]

end PgMesh.Plugin
