import PgMesh.Plugin.RelationTokens

/-!
# Escape string constants

In a constant `E'...'` a backslash escapes the next byte, also a quote.  The
tokenizer knows doubled quotes only, and reads `\'` as the end of the constant.
A text is cut at the opening quote of the constant: the tokenizer has read what
stands in front of it, or is in the middle of something else.
-/

namespace PgMesh.Plugin

open PgMesh.Foundation

def backslash : UInt8 := '\\'.toUInt8

/-- What the tokenizer is in the middle of, when it meets a quote. -/
inductive Interrupted where
  | lineComment
  | blockComment (depth : Nat)
  /-- A string that the quote can end. -/
  | closing
  /-- A string; the quote is the second of two. -/
  | string
  | quotedIdentifier (value : Bytes)
  | dollarString (tag : Bytes) (htag : ∀ c ∈ tag, isSQLDollarTagPart c = true)

/-- The end of the round, if `behind` stands behind the quote. -/
def Interrupted.resume (behind : Bytes) : Interrupted → List SqlRelationToken × Bytes
  | .lineComment => ([], skipSQLLineComment behind)
  | .blockComment depth => ([], skipSQLBlockComment (depth + 1) behind)
  | .closing => ([], skipSQLSingleQuotedString (singleQuote :: behind))
  | .string => ([], skipSQLSingleQuotedString behind)
  | .quotedIdentifier value =>
      ([⟨value ++ (readSQLQuotedIdentifier behind).1, true, true⟩],
        (readSQLQuotedIdentifier behind).2)
  | .dollarString tag _ => ([], (cutAfter (dollarDelimiter tag) behind).getD [])

/-- A reader that gets `u` and a quote behind it ends within `u`, or is interrupted. -/
def MeetsQuote (u : Bytes) (read : Bytes → List SqlRelationToken × Bytes) : Prop :=
  (∃ tokens v, v <:+ u ∧ ∀ x, read (u ++ singleQuote :: x) = (tokens, v ++ singleQuote :: x)) ∨
    ∃ state : Interrupted, (state = .string → u.getLast? = some singleQuote) ∧
      ∀ x, read (u ++ singleQuote :: x) = state.resume x

namespace MeetsQuote

variable {u : Bytes} {read read' : Bytes → List SqlRelationToken × Bytes}

theorem ended (tokens : List SqlRelationToken) {v : Bytes} (hv : v <:+ u)
    (h : ∀ x, read (u ++ singleQuote :: x) = (tokens, v ++ singleQuote :: x)) :
    MeetsQuote u read :=
  .inl ⟨tokens, v, hv, h⟩

end MeetsQuote

/-- No byte that could end a comment, a string or a quoted identifier. -/
def PlainText (text : Bytes) : Prop :=
  ∀ c ∈ text, c ∉ [newline, slash, star, singleQuote, doubleQuote, dollarSign, backslash]

theorem PlainText.not_mem {text : Bytes} (h : PlainText text) {c : UInt8}
    (hc : c ∈ [newline, slash, star, singleQuote, doubleQuote, dollarSign, backslash]) :
    c ∉ text :=
  fun hmem => h c hmem hc

theorem PlainText.head_ne {text : Bytes} (h : PlainText text) : text.head? ≠ some singleQuote :=
  fun hhead => h.not_mem (c := singleQuote) (by simp) (List.mem_of_head? hhead)

/-! ## A text in front of the constant that is read differently -/

end PgMesh.Plugin
