import Mathlib.Data.List.Forall2
import Mathlib.Data.List.Basic

/-!
# A fragment of regular expressions

Sequences of characters, dots, starred characters or dots, and the two anchors,
in the syntax of Go's package `regexp`.  An expression is read from its text, and
`matchString` searches a string for it the way a backtracking matcher does.
An expression outside the fragment is not read.
-/

namespace PgMesh.Foundation.Regexp

inductive CharSet where
  | any
  | literal (char : Char)
  deriving DecidableEq, Repr

/-- The dot takes every character but a newline. -/
def CharSet.accepts : CharSet → Char → Bool
  | .any, c => c != '\n'
  | .literal char, c => c == char

inductive Piece where
  | one (set : CharSet)
  | many (set : CharSet)
  deriving DecidableEq, Repr

inductive Item where
  | begin
  | finish
  | piece (p : Piece)
  deriving DecidableEq, Repr

/-! ## Reading an expression -/

inductive Token where
  | begin
  | finish
  | star
  | set (s : CharSet)
  deriving DecidableEq, Repr

def metaCharacters : List Char :=
  ['\\', '.', '+', '*', '?', '(', ')', '|', '[', ']', '\x7b', '\x7d', '^', '$']

/-- `regexp.QuoteMeta` of a single character. -/
def quoteMeta (c : Char) : List Char := if c ∈ metaCharacters then ['\\', c] else [c]

/-- A backslash makes these characters stand for themselves. -/
def isPunctuation (c : Char) : Bool := c.toNat < 128 && !c.isAlphanum

def plainToken (c : Char) : Option Token :=
  if c = '^' then some .begin
  else if c = '$' then some .finish
  else if c = '.' then some (.set .any)
  else if c = '*' then some .star
  -- groups, classes, alternatives and the other repetitions
  else if c ∈ metaCharacters then none
  else some (.set (.literal c))

/-- The tokens of a text; the argument says whether a backslash has just been read. -/
def tokens : Bool → List Char → Option (List Token)
  | false, [] => some []
  | true, [] => none
  | true, c :: text =>
      if isPunctuation c then (tokens false text).map (.set (.literal c) :: ·) else none
  | false, c :: text =>
      if c = '\\' then tokens true text
      else (plainToken c).bind fun token => (tokens false text).map (token :: ·)

/-- A star repeats the set in front of it, and there has to be one. -/
def items : List Token → Option (List Item)
  | [] => some []
  | .begin :: rest => (items rest).map (.begin :: ·)
  | .finish :: rest => (items rest).map (.finish :: ·)
  | .star :: _ => none
  | .set s :: .star :: rest => (items rest).map (.piece (.many s) :: ·)
  | .set s :: rest => (items rest).map (.piece (.one s) :: ·)

/-- `regexp.Compile`. -/
def compile (text : List Char) : Option (List Item) := (tokens false text).bind items

/-! ## Matching -/

/-- Takes characters of the set, as few as the rest of the expression allows. -/
def matchMany (s : CharSet) (next : Bool → List Char → Bool) : Bool → List Char → Bool
  | start, [] => next start []
  | start, c :: text => next start (c :: text) || (s.accepts c && matchMany s next false text)

/-- The items match at the front of a text, which is the beginning of the string or not. -/
def matchItems : List Item → Bool → List Char → Bool
  | [], _, _ => true
  | .begin :: rest, start, text => start && matchItems rest start text
  | .finish :: rest, start, text => text.isEmpty && matchItems rest start text
  | .piece (.one _) :: _, _, [] => false
  | .piece (.one s) :: rest, _, c :: text => s.accepts c && matchItems rest false text
  | .piece (.many s) :: rest, start, text => matchMany s (matchItems rest) start text

def search (next : Bool → List Char → Bool) : Bool → List Char → Bool
  | start, [] => next start []
  | start, c :: text => next start (c :: text) || search next false text

/-- `Regexp.MatchString`: the string contains a match. -/
def matchString (expression : List Item) (text : List Char) : Bool :=
  search (matchItems expression) true text

/-! ## The tokens of quoted characters -/

theorem tokens_quoteMeta (c : Char) (text : List Char) :
    tokens false (quoteMeta c ++ text) =
      (tokens false text).map (.set (.literal c) :: ·) := by
  rw [quoteMeta]
  split
  case isTrue hmeta =>
    have hall : metaCharacters.all isPunctuation := by decide
    have hpunctuation := List.all_eq_true.mp hall c hmeta
    simp [tokens, hpunctuation]
  case isFalse hmeta =>
    have hplain : plainToken c = some (.set (.literal c)) := by
      rw [plainToken, if_neg, if_neg, if_neg, if_neg, if_neg hmeta] <;>
        rintro rfl <;> exact hmeta (by decide)
    have hbackslash : c ≠ '\\' := by
      rintro rfl
      exact hmeta (by decide)
    simp [tokens, hbackslash, hplain]

/-! ## Anchored expressions -/

/-- What a piece takes of a text. -/
def Piece.Takes : Piece → List Char → Prop
  | .one s, part => ∃ c, part = [c] ∧ s.accepts c
  | .many s, part => ∀ c ∈ part, s.accepts c

def anchored (pieces : List Piece) : List Item :=
  .begin :: (pieces.map .piece ++ [.finish])

theorem matchMany_iff (s : CharSet) (next : Bool → List Char → Bool) (P : List Char → Prop)
    (hnext : ∀ start text, next start text = true ↔ P text) (start : Bool)
    (text : List Char) :
    matchMany s next start text = true ↔
      ∃ part rest, text = part ++ rest ∧ (∀ c ∈ part, s.accepts c) ∧ P rest := by
  induction text generalizing start with
  | nil =>
      rw [matchMany, hnext]
      constructor
      · intro h
        exact ⟨[], [], rfl, by simp, h⟩
      · rintro ⟨part, rest, happend, -, h⟩
        obtain ⟨-, rfl⟩ := List.append_eq_nil_iff.mp happend.symm
        exact h
  | cons c text ih =>
      rw [matchMany, Bool.or_eq_true, Bool.and_eq_true, hnext, ih]
      constructor
      · rintro (h | ⟨hc, part, rest, rfl, hpart, h⟩)
        · exact ⟨[], c :: text, rfl, by simp, h⟩
        · exact ⟨c :: part, rest, rfl, by simpa using ⟨hc, hpart⟩, h⟩
      · rintro ⟨part, rest, happend, hpart, h⟩
        cases part with
        | nil =>
            left
            rw [List.nil_append] at happend
            rwa [happend]
        | cons d part =>
            right
            obtain ⟨rfl, rfl⟩ := List.cons.inj happend
            rw [List.forall_mem_cons] at hpart
            exact ⟨hpart.1, part, rest, rfl, hpart.2, h⟩

/-- The pieces up to the end of the text share it out among themselves. -/
theorem matchItems_pieces_iff (pieces : List Piece) (start : Bool) (text : List Char) :
    matchItems (pieces.map .piece ++ [.finish]) start text = true ↔
      ∃ parts, List.Forall₂ Piece.Takes pieces parts ∧ text = parts.flatten := by
  induction pieces generalizing start text with
  | nil => simp [matchItems]
  | cons piece pieces ih =>
      rw [List.map_cons, List.cons_append]
      constructor
      · intro h
        cases piece with
        | one s =>
            cases text with
            | nil => simp [matchItems] at h
            | cons c text =>
                rw [matchItems, Bool.and_eq_true, ih] at h
                obtain ⟨hc, parts, hparts, rfl⟩ := h
                exact ⟨[c] :: parts, .cons ⟨c, rfl, hc⟩ hparts, rfl⟩
        | many s =>
            rw [matchItems, matchMany_iff s _ _ ih] at h
            obtain ⟨part, rest, rfl, hpart, parts, hparts, rfl⟩ := h
            exact ⟨part :: parts, .cons hpart hparts, rfl⟩
      · rintro ⟨_, hparts, rfl⟩
        cases hparts with
        | @cons _ part _ parts hpart hparts =>
            cases piece with
            | one s =>
                obtain ⟨c, rfl, hc⟩ := hpart
                rw [List.flatten_cons, List.singleton_append, matchItems, Bool.and_eq_true, ih]
                exact ⟨hc, parts, hparts, rfl⟩
            | many s =>
                rw [matchItems, matchMany_iff s _ _ ih]
                exact ⟨part, parts.flatten, rfl, hpart, parts, hparts, rfl⟩

/-- A match that has to begin at the beginning is found there or nowhere. -/
theorem search_begin (rest : List Item) (start : Bool) (text : List Char) :
    search (matchItems (.begin :: rest)) start text = (start && matchItems rest start text) := by
  induction text generalizing start with
  | nil => rfl
  | cons c text ih => rw [search, ih, matchItems, Bool.false_and, Bool.or_false]

theorem matchString_anchored_iff (pieces : List Piece) (text : List Char) :
    matchString (anchored pieces) text = true ↔
      ∃ parts, List.Forall₂ Piece.Takes pieces parts ∧ text = parts.flatten := by
  rw [matchString, anchored, search_begin, Bool.true_and]
  exact matchItems_pieces_iff pieces true text

end PgMesh.Foundation.Regexp
