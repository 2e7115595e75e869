import PgMesh.Foundation.Replace

/-!
# Words of a Go text

A text is read as words, marks, and passages that are no code: string literals
and comments.  A word together with the dot behind it is one lexeme, the
qualifier of a selector.  Removing a qualifier from the list of lexemes is
compared with removing the same characters from the text.
-/

namespace PgMesh.Foundation

inductive Lexeme where
  | word (name : List Char)
  /-- `name`, blanks and a dot -/
  | qualifier (name gap : List Char)
  | mark (c : Char)
  /-- A string literal or a comment. -/
  | verbatim (content : List Char)
  deriving DecidableEq, Repr

namespace Lexeme

def text : Lexeme → List Char
  | .word name => name
  | .qualifier name gap => name ++ gap ++ ['.']
  | .mark c => [c]
  | .verbatim content => content

def qualifies (name : List Char) : Lexeme → Bool
  | .qualifier name' _ => name' == name
  | _ => false

end Lexeme

def textOf (ls : List Lexeme) : List Char := ls.flatMap Lexeme.text

/-- The blanks that can stand between a qualifier and its dot. -/
def isGap (c : Char) : Bool := c == ' ' || c == '\t' || c == '\r'

/-! ## Reading a text -/

/-- A passage that is no code, up to its end. -/
inductive Passage where
  | literal (close : Char) (escaped : Bool)
  | lineComment
  | blockOpen
  | blockComment (star : Bool)

/-- The passage after its next character; `none` when that character ends it. -/
def Passage.next : Passage → Char → Option Passage
  | .literal close escaped, c =>
      if c = close ∧ escaped = false then none
      else some (.literal close (c == '\\' && !escaped && close != '\x60'))
  | .lineComment, c => if c = '\n' then none else some .lineComment
  | .blockOpen, _ => some (.blockComment false)
  | .blockComment star, c =>
      if c = '/' ∧ star = true then none else some (.blockComment (c == '*'))

/-- The passage that a character begins, in front of the rest of the text. -/
def passageAt (c : Char) (rest : List Char) : Option Passage :=
  if c = '\x22' ∨ c = '\x27' ∨ c = '\x60' then some (.literal c false)
  else if c = '/' ∧ rest.head? = some '/' then some .lineComment
  else if c = '/' ∧ rest.head? = some '*' then some .blockOpen
  else none

/-- The blanks and the dot at the beginning of a list of lexemes. -/
def takeDot : List Lexeme → Option (List Char × List Lexeme)
  | .mark c :: ls =>
      if c = '.' then some ([], ls)
      else if isGap c then (takeDot ls).map fun (gap, ls) => (c :: gap, ls)
      else none
  | _ => none

def consWord (c : Char) : List Lexeme → List Lexeme
  | .word name :: ls => .word (c :: name) :: ls
  | .qualifier name gap :: ls => .qualifier (c :: name) gap :: ls
  | ls =>
      match takeDot ls with
      | some (gap, ls) => .qualifier [c] gap :: ls
      | none => .word [c] :: ls

section Scan

variable (isWord : Char → Bool)

/-- What is left of the passage, and the lexemes behind it. -/
def scanFrom : Option Passage → List Char → List Char × List Lexeme
  | _, [] => ([], [])
  | none, c :: rest =>
      match passageAt c rest with
      | some passage =>
          let (content, ls) := scanFrom (some passage) rest
          ([], .verbatim (c :: content) :: ls)
      | none =>
          let ls := (scanFrom none rest).2
          ([], if isWord c then consWord c ls else .mark c :: ls)
  | some passage, c :: rest =>
      match passage.next c with
      | none => ([c], (scanFrom none rest).2)
      | some passage =>
          let (content, ls) := scanFrom (some passage) rest
          (c :: content, ls)

def scan (s : List Char) : List Lexeme := (scanFrom isWord none s).2

end Scan

/-- The name behind the dot of a selector. -/
def nameBehind : List Lexeme → Option (List Char)
  | .word name :: _ => some name
  | .qualifier name _ :: _ => some name
  | .mark c :: ls => if isGap c || c == '\n' then nameBehind ls else none
  | _ => none

/-- The names that are selected from a package. -/
def selections (package : List Char) : List Lexeme → List (List Char)
  | [] => []
  | l :: ls =>
      (if l.qualifies package then (nameBehind ls).toList else []) ++ selections package ls

@[simp] theorem textOf_nil : textOf [] = [] := rfl

@[simp] theorem textOf_cons (l : Lexeme) (ls : List Lexeme) :
    textOf (l :: ls) = l.text ++ textOf ls := by
  simp [textOf]

theorem takeDot_text {ls ls' : List Lexeme} {gap : List Char}
    (h : takeDot ls = some (gap, ls')) :
    textOf ls = gap ++ '.' :: textOf ls' ∧ ∀ c ∈ gap, isGap c = true := by
  induction ls generalizing gap with
  | nil => cases h
  | cons l ls ih =>
      cases l with
      | mark c =>
          rw [takeDot] at h
          split at h
          case isTrue hdot =>
            cases h
            subst hdot
            simp [Lexeme.text]
          case isFalse =>
            split at h
            case isTrue hgap =>
              obtain ⟨⟨gap', ls''⟩, hrest, heq⟩ := Option.map_eq_some_iff.mp h
              cases heq
              obtain ⟨htext, hall⟩ := ih hrest
              refine ⟨by simp [Lexeme.text, htext], ?_⟩
              intro x hx
              rcases List.mem_cons.mp hx with rfl | hx
              · exact hgap
              · exact hall x hx
            case isFalse => cases h
      | word | qualifier | verbatim => cases h

theorem consWord_text (c : Char) (ls : List Lexeme) :
    textOf (consWord c ls) = c :: textOf ls := by
  unfold consWord
  split
  · simp [Lexeme.text]
  · simp [Lexeme.text]
  · split
    case h_1 gap ls' hdot =>
      simp [Lexeme.text, (takeDot_text hdot).1]
    case h_2 => simp [Lexeme.text]

theorem scanFrom_none_fst (isWord : Char → Bool) (s : List Char) :
    (scanFrom isWord none s).1 = [] := by
  cases s with
  | nil => rfl
  | cons c rest =>
      rw [scanFrom]
      split <;> rfl

theorem scanFrom_text (isWord : Char → Bool) (passage : Option Passage) (s : List Char) :
    (scanFrom isWord passage s).1 ++ textOf (scanFrom isWord passage s).2 = s := by
  induction s generalizing passage with
  | nil => cases passage <;> rfl
  | cons c rest ih =>
      have hrest : textOf (scanFrom isWord none rest).2 = rest := by
        simpa [scanFrom_none_fst] using ih none
      cases passage with
      | none =>
          rw [scanFrom]
          split
          case h_1 passage _ => simpa [Lexeme.text] using ih (some passage)
          case h_2 =>
            dsimp only
            split
            · rw [List.nil_append, consWord_text, hrest]
            · simp [Lexeme.text, hrest]
      | some passage =>
          rw [scanFrom]
          split
          case h_1 => simp [hrest]
          case h_2 passage' _ => simpa using ih (some passage')

@[simp] theorem textOf_scan (isWord : Char → Bool) (s : List Char) :
    textOf (scan isWord s) = s := by
  simpa [scan, scanFrom_none_fst] using scanFrom_text isWord none s

theorem scan_cons_mark {isWord : Char → Bool} {c : Char} {rest : List Char}
    (hpassage : passageAt c rest = none) (hc : isWord c = false) :
    scan isWord (c :: rest) = .mark c :: scan isWord rest := by
  simp [scan, scanFrom, hpassage, hc]

/-- A text without a dot has no selectors. -/
theorem selections_eq_nil {package : List Char} {ls : List Lexeme} (h : '.' ∉ textOf ls) :
    selections package ls = [] := by
  induction ls with
  | nil => rfl
  | cons l ls ih =>
      rw [textOf_cons, List.mem_append, not_or] at h
      rw [selections, ih h.2]
      cases l with
      | qualifier name gap => exact absurd (by simp [Lexeme.text]) h.1
      | word | mark | verbatim => rfl

/-! ## What a scan yields -/

/-- Characters that belong to no word. -/
def delimiters : List Char :=
  ['.', ' ', '\t', '\r', '\n', '/', '\x22', '\x27', '\x60']

/--
Lexemes as a scan yields them.  Behind a word stands neither a character of a
word nor a dot, and a passage ends with a delimiter unless the text ends with it.
-/
inductive Scanned (isWord : Char → Bool) : List Lexeme → Prop where
  | nil : Scanned isWord []
  | word {name : List Char} {ls : List Lexeme} (hname : ∀ c ∈ name, isWord c = true)
      (hnext : ∀ c ∈ (textOf ls).head?, isWord c = false ∧ c ≠ '.')
      (hls : Scanned isWord ls) : Scanned isWord (.word name :: ls)
  | qualifier {name gap : List Char} {ls : List Lexeme}
      (hname : ∀ c ∈ name, isWord c = true) (hgap : ∀ c ∈ gap, isGap c = true)
      (hls : Scanned isWord ls) : Scanned isWord (.qualifier name gap :: ls)
  | mark {c : Char} {ls : List Lexeme} (hmark : isWord c = false)
      (hls : Scanned isWord ls) : Scanned isWord (.mark c :: ls)
  | verbatim {c : Char} {content : List Char} {ls : List Lexeme}
      (hopen : c ∈ delimiters ∧ c ≠ '.')
      (hclose : ls = [] ∨ ∃ d ∈ delimiters, content.getLast? = some d)
      (hls : Scanned isWord ls) : Scanned isWord (.verbatim (c :: content) :: ls)

section Scanned

variable {isWord : Char → Bool} (hdelimiters : ∀ c ∈ delimiters, isWord c = false)

theorem Scanned.takeDot {ls ls' : List Lexeme} {gap : List Char}
    (h : Scanned isWord ls) (hdot : takeDot ls = some (gap, ls')) : Scanned isWord ls' := by
  induction h generalizing gap with
  | mark hmark hls ih =>
      rw [Foundation.takeDot] at hdot
      split at hdot
      · cases hdot
        exact hls
      · split at hdot
        · obtain ⟨⟨gap', ls''⟩, hrest, heq⟩ := Option.map_eq_some_iff.mp hdot
          cases heq
          exact ih hrest
        · cases hdot
  | nil | word | qualifier | verbatim => cases hdot

include hdelimiters in
theorem Scanned.consWord {ls : List Lexeme} (h : Scanned isWord ls) {c : Char}
    (hc : isWord c = true) : Scanned isWord (consWord c ls) := by
  have hsingle : ∀ x ∈ [c], isWord x = true := by simpa using hc
  cases h with
  | nil => exact .word hsingle (by simp) .nil
  | word hname hnext hls =>
      exact .word (List.forall_mem_cons.mpr ⟨hc, hname⟩) hnext hls
  | qualifier hname hgap hls =>
      exact .qualifier (List.forall_mem_cons.mpr ⟨hc, hname⟩) hgap hls
  | @mark d ls hmark hls =>
      rw [Foundation.consWord]
      · split
        case h_1 gap ls' hdot =>
          exact .qualifier hsingle (takeDot_text hdot).2 ((hls.mark hmark).takeDot hdot)
        case h_2 hnone =>
          refine .word hsingle ?_ (hls.mark hmark)
          simp only [textOf_cons, Lexeme.text, List.cons_append, List.head?_cons,
            Option.mem_some_iff, forall_eq']
          refine ⟨hmark, ?_⟩
          rintro rfl
          simp [Foundation.takeDot] at hnone
      · simp
      · simp
  | verbatim hopen hclose hls =>
      refine .word hsingle ?_ (hls.verbatim hopen hclose)
      simp only [textOf_cons, Lexeme.text, List.cons_append, List.head?_cons,
        Option.mem_some_iff, forall_eq']
      exact ⟨hdelimiters _ hopen.1, hopen.2⟩

/-- The quote that ends a literal is a delimiter. -/
def Passage.Quoted : Passage → Prop
  | .literal close _ => close ∈ delimiters
  | _ => True

theorem Passage.next_none {passage : Passage} (hquoted : passage.Quoted) {c : Char}
    (h : passage.next c = none) : c ∈ delimiters := by
  unfold Passage.next at h
  split at h
  · split at h
    case isTrue hc => exact hc.1 ▸ hquoted
    case isFalse => cases h
  · split at h
    case isTrue hc => simp [hc, delimiters]
    case isFalse => cases h
  · cases h
  · split at h
    case isTrue hc => simp [hc.1, delimiters]
    case isFalse => cases h

theorem Passage.next_quoted {passage passage' : Passage} (hquoted : passage.Quoted)
    {c : Char} (h : passage.next c = some passage') : passage'.Quoted := by
  unfold Passage.next at h
  split at h
  · split at h
    case isTrue => cases h
    case isFalse =>
      cases h
      exact hquoted
  · split at h
    case isTrue => cases h
    case isFalse =>
      cases h
      trivial
  · cases h
    trivial
  · split at h
    case isTrue => cases h
    case isFalse =>
      cases h
      trivial

theorem passageAt_quoted {c : Char} {rest : List Char} {passage : Passage}
    (h : passageAt c rest = some passage) :
    passage.Quoted ∧ c ∈ delimiters ∧ c ≠ '.' := by
  unfold passageAt at h
  split at h
  case isTrue hc =>
    cases h
    have hmem : c ∈ delimiters ∧ c ≠ '.' := by
      rcases hc with rfl | rfl | rfl <;> decide
    exact ⟨hmem.1, hmem⟩
  case isFalse =>
    split at h
    case isTrue hc =>
      cases h
      exact ⟨trivial, by simp [hc.1, delimiters], by simp [hc.1]⟩
    case isFalse =>
      split at h
      case isTrue hc =>
        cases h
        exact ⟨trivial, by simp [hc.1, delimiters], by simp [hc.1]⟩
      case isFalse => cases h

include hdelimiters in
theorem scanned_scanFrom (s : List Char) :
    Scanned isWord (scanFrom isWord none s).2 ∧
      ∀ passage : Passage, passage.Quoted →
        Scanned isWord (scanFrom isWord (some passage) s).2 ∧
          ((scanFrom isWord (some passage) s).2 = [] ∨
            ∃ d ∈ delimiters, (scanFrom isWord (some passage) s).1.getLast? = some d) := by
  induction s with
  | nil => exact ⟨.nil, fun passage _ => ⟨.nil, .inl rfl⟩⟩
  | cons c rest ih =>
      obtain ⟨hcode, hpassages⟩ := ih
      refine ⟨?_, fun passage hquoted => ?_⟩
      · rw [scanFrom]
        split
        case h_1 passage hpassage =>
          obtain ⟨hquoted, hopen⟩ := passageAt_quoted hpassage
          obtain ⟨hls, hclose⟩ := hpassages passage hquoted
          exact hls.verbatim hopen hclose
        case h_2 =>
          dsimp only
          split
          case isTrue hc => exact hcode.consWord hdelimiters hc
          case isFalse hc => exact hcode.mark (by simpa using hc)
      · rw [scanFrom]
        split
        case h_1 hnext =>
          exact ⟨hcode, .inr ⟨c, Passage.next_none hquoted hnext, rfl⟩⟩
        case h_2 passage' hnext =>
          obtain ⟨hls, hclose⟩ := hpassages passage' (Passage.next_quoted hquoted hnext)
          refine ⟨hls, hclose.imp_right ?_⟩
          rintro ⟨d, hd, hlast⟩
          exact ⟨d, hd, by simp [List.getLast?_cons, hlast]⟩

include hdelimiters in
theorem scanned_scan (s : List Char) : Scanned isWord (scan isWord s) :=
  (scanned_scanFrom hdelimiters s).1

end Scanned

/-! ## Removing a qualifier -/

section Removal

variable {isWord : Char → Bool} (hdelimiters : ∀ c ∈ delimiters, isWord c = false)
  {name : List Char} (hword : ∀ c ∈ name, isWord c = true)

theorem dotted_ne_nil (name : List Char) : name ++ ['.'] ≠ [] := by simp

/-- The parts of a name with its dot. -/
theorem dotted_eq_append {u v : List Char} (h : name ++ ['.'] = u ++ v) (hv : v ≠ []) :
    ∃ rest, name = u ++ rest ∧ v = rest ++ ['.'] := by
  obtain ⟨rest, last, rfl⟩ := (List.eq_nil_or_concat v).resolve_left hv
  rw [List.concat_eq_append, ← List.append_assoc] at h
  obtain ⟨hname, hlast⟩ := List.append_inj' h rfl
  cases hlast
  exact ⟨rest, hname, List.concat_eq_append⟩

include hword in
theorem isWord_last_of_suffix {u rest l : List Char} (hname : name = u ++ rest)
    (hu : u ≠ []) (hsuffix : u <:+ l) : ∃ c, l.getLast? = some c ∧ isWord c = true := by
  obtain ⟨front, last, rfl⟩ := (List.eq_nil_or_concat u).resolve_left hu
  obtain ⟨before, rfl⟩ := hsuffix
  refine ⟨last, by simp, hword last ?_⟩
  simp [hname]

include hword in
theorem head_of_prefix {u rest l : List Char} (hname : name = u ++ rest)
    (hstart : rest ++ ['.'] <+: l) : ∃ c, l.head? = some c ∧ (isWord c = true ∨ c = '.') := by
  obtain ⟨after, rfl⟩ := hstart
  cases rest with
  | nil => exact ⟨'.', rfl, .inr rfl⟩
  | cons c rest => exact ⟨c, rfl, .inl (hword c (by simp [hname]))⟩

include hdelimiters hword in
/-- A name with its dot lies within one lexeme. -/
theorem Scanned.markAll {ls : List Lexeme} (h : Scanned isWord ls) :
    markAll (name ++ ['.']) (textOf ls) =
      ls.flatMap fun l => markAll (name ++ ['.']) l.text := by
  have hstep : ∀ (l : Lexeme) (ls : List Lexeme),
      (∀ c, l.text.getLast? = some c → isWord c = true →
        ∀ d, (textOf ls).head? = some d → isWord d = true ∨ d = '.' → False) →
      Foundation.markAll (name ++ ['.']) (textOf (l :: ls)) =
        Foundation.markAll (name ++ ['.']) l.text ++
          Foundation.markAll (name ++ ['.']) (textOf ls) := by
    intro l ls hboundary
    rw [textOf_cons]
    refine markAll_append (dotted_ne_nil name) fun u v huv hu hv hsuffix hstart => ?_
    obtain ⟨rest, hname, rfl⟩ := dotted_eq_append huv hv
    obtain ⟨c, hlast, hc⟩ := isWord_last_of_suffix hword hname hu hsuffix
    obtain ⟨d, hhead, hd⟩ := head_of_prefix hword hname hstart
    exact hboundary c hlast hc d hhead hd
  induction h with
  | nil => rfl
  | @word name' ls hname hnext hls ih =>
      rw [hstep, ih, List.flatMap_cons]
      intro c _ _ d hhead hd
      obtain ⟨hnot, hdot⟩ := hnext d hhead
      rcases hd with hd | hd
      · rw [hnot] at hd
        cases hd
      · exact hdot hd
  | @qualifier name' gap ls hname hgap hls ih =>
      rw [hstep, ih, List.flatMap_cons]
      intro c hlast hc
      have hdot : c = '.' := by simpa [Lexeme.text] using hlast.symm
      rw [hdot, hdelimiters '.' (by decide)] at hc
      cases hc
  | @mark c' ls hmark hls ih =>
      rw [hstep, ih, List.flatMap_cons]
      intro c hlast hc
      have hc' : c = c' := by simpa [Lexeme.text] using hlast.symm
      rw [hc', hmark] at hc
      cases hc
  | @verbatim c' content ls hopen hclose hls ih =>
      rw [hstep, ih, List.flatMap_cons]
      intro c hlast hc d hhead
      rcases hclose with rfl | ⟨close, hclose, hcontent⟩
      · cases hhead
      · have hsame : c = close := by
          simpa [Lexeme.text, List.getLast?_cons, hcontent] using hlast.symm
        rw [hsame, hdelimiters close hclose] at hc
        cases hc

/-! How often the name stands in front of a dot in a lexeme. -/

theorem dotted_infix_iff {s : List Char} (hs : '.' ∉ s) :
    name ++ ['.'] <:+: s ++ ['.'] ↔ name <:+ s := by
  constructor
  · rintro ⟨before, after, h⟩
    rcases List.eq_nil_or_concat after with rfl | ⟨front, last, rfl⟩
    · rw [List.append_nil, ← List.append_assoc] at h
      exact ⟨before, List.append_inj_left' h rfl⟩
    · rw [List.concat_eq_append, ← List.append_assoc] at h
      have hfront := List.append_inj_left' h rfl
      exact absurd (by simp [← hfront]) hs
  · rintro ⟨before, rfl⟩
    exact ⟨before, [], by simp⟩

/-- The name stands in front of a dot in the text of the lexeme. -/
def Lexeme.Mentions (name : List Char) : Lexeme → Prop
  | .qualifier name' gap => gap = [] ∧ name <:+ name'
  | .verbatim content => name ++ ['.'] <:+: content
  | _ => False

instance (name : List Char) (l : Lexeme) : Decidable (l.Mentions name) := by
  cases l <;> unfold Lexeme.Mentions <;> infer_instance

/-- The lexeme is the name as a qualifier: 1 or 0. -/
def Lexeme.uses (name : List Char) (l : Lexeme) : Nat := if l.qualifies name then 1 else 0

include hdelimiters hword in
theorem not_mem_of_isWord : '.' ∉ name := by
  intro h
  have hdot := hword '.' h
  rw [hdelimiters '.' (by decide)] at hdot
  cases hdot

theorem isGap_mem_delimiters {c : Char} (h : isGap c = true) : c ∈ delimiters ∧ c ≠ '.' := by
  simp only [isGap, Bool.or_eq_true, beq_iff_eq] at h
  rcases h with (rfl | rfl) | rfl <;> decide

variable (hne : name ≠ [])

include hdelimiters hword hne in
theorem suffix_append_gap {name' gap : List Char} (hgap : ∀ c ∈ gap, isGap c = true) :
    name <:+ name' ++ gap ↔ gap = [] ∧ name <:+ name' := by
  constructor
  · intro hsuffix
    obtain ⟨c, hlast, hc⟩ :=
      isWord_last_of_suffix hword (List.append_nil name).symm hne hsuffix
    rcases List.eq_nil_or_concat gap with rfl | ⟨front, last, rfl⟩
    · exact ⟨rfl, by simpa using hsuffix⟩
    · have hsame : c = last := by simpa using hlast.symm
      have hdelimiter := (isGap_mem_delimiters (hgap last (by simp))).1
      rw [hsame, hdelimiters last hdelimiter] at hc
      cases hc
  · rintro ⟨rfl, hsuffix⟩
    simpa using hsuffix

include hdelimiters hword hne in
theorem Scanned.occurrences_ne_zero {ls : List Lexeme} (h : Scanned isWord ls) :
    ∀ l ∈ ls, occurrences (name ++ ['.']) l.text ≠ 0 ↔ l.Mentions name := by
  have hinside : ∀ s, occurrences (name ++ ['.']) s ≠ 0 ↔ name ++ ['.'] <:+: s :=
    fun s => (occurrences_eq_zero_iff (dotted_ne_nil name)).not_left
  induction h with
  | nil => simp
  | @word name' ls hname hnext hls ih =>
      refine List.forall_mem_cons.mpr ⟨?_, ih⟩
      rw [hinside]
      refine iff_of_false (fun hdotted => ?_) id
      exact not_mem_of_isWord hdelimiters hname
        (hdotted.subset (List.mem_append_right name (List.mem_singleton_self '.')))
  | @qualifier name' gap ls hname hgap hls ih =>
      refine List.forall_mem_cons.mpr ⟨?_, ih⟩
      have hdot : '.' ∉ name' ++ gap := by
        rw [List.mem_append, not_or]
        exact ⟨not_mem_of_isWord hdelimiters hname,
          fun h => (isGap_mem_delimiters (hgap '.' h)).2 rfl⟩
      rw [hinside, Lexeme.text, dotted_infix_iff hdot,
        suffix_append_gap hdelimiters hword hne hgap]
      rfl
  | @mark c ls hmark hls ih =>
      refine List.forall_mem_cons.mpr ⟨?_, ih⟩
      rw [hinside]
      refine iff_of_false (fun hdotted => ?_) id
      have hlength := hdotted.length_le
      have hpos := List.length_pos_of_ne_nil hne
      simp only [List.length_append, Lexeme.text, List.length_singleton] at hlength
      omega
  | @verbatim c content ls hopen hclose hls ih =>
      exact List.forall_mem_cons.mpr ⟨hinside _, ih⟩

include hdelimiters hword hne in
/-- A text search finds a name in front of a dot in one of the lexemes. -/
theorem Scanned.dotted_infix_iff {ls : List Lexeme} (h : Scanned isWord ls) :
    name ++ ['.'] <:+: textOf ls ↔ ∃ l ∈ ls, l.Mentions name := by
  have hsum := occurrences_eq_sum (h.markAll hdelimiters hword)
  rw [← not_iff_not, ← occurrences_eq_zero_iff (dotted_ne_nil name), hsum,
    List.sum_eq_zero_iff_forall_eq_nat]
  simp only [List.forall_mem_map, not_exists, not_and]
  refine forall₂_congr fun l hl => ?_
  rw [← h.occurrences_ne_zero hdelimiters hword hne l hl, not_not]

end Removal

/-! The lexemes without a qualifier. -/

def unqualify (name : List Char) (ls : List Lexeme) : List Lexeme :=
  ls.filter fun l => !l.qualifies name

theorem textOf_unqualify (name : List Char) (ls : List Lexeme) :
    textOf (unqualify name ls) =
      ls.flatMap fun l => if l.qualifies name then [] else l.text := by
  unfold unqualify
  induction ls with
  | nil => rfl
  | cons l ls ih => cases hl : l.qualifies name <;> simp [hl, ih]

theorem countP_unqualify (p : Char → Bool) (name : List Char) (ls : List Lexeme) :
    (textOf (unqualify name ls)).countP p +
        (ls.map fun l => l.uses name * l.text.countP p).sum =
      (textOf ls).countP p := by
  unfold unqualify
  induction ls with
  | nil => rfl
  | cons l ls ih =>
      cases hl : l.qualifies name with
      | true =>
          have huses : l.uses name = 1 := by simp [Lexeme.uses, hl]
          simp only [List.filter_cons, hl, Bool.not_true, Bool.false_eq_true, if_false,
            textOf_cons, List.countP_append, List.map_cons, List.sum_cons, huses]
          omega
      | false =>
          have huses : l.uses name = 0 := by simp [Lexeme.uses, hl]
          simp only [List.filter_cons, hl, Bool.not_false, if_true, textOf_cons,
            List.countP_append, List.map_cons, List.sum_cons, huses]
          omega

/-- Numbers that are bounded one by one and have the same sum are the same. -/
theorem eq_of_sum_map_eq {ι : Type} {f g : ι → Nat} {parts : List ι}
    (hle : ∀ part ∈ parts, f part ≤ g part)
    (hsum : (parts.map f).sum = (parts.map g).sum) : ∀ part ∈ parts, f part = g part := by
  induction parts with
  | nil => simp
  | cons part parts ih =>
      obtain ⟨hfirst, hrest⟩ := List.forall_mem_cons.mp hle
      have htails : (parts.map f).sum ≤ (parts.map g).sum := List.sum_le_sum hrest
      simp only [List.map_cons, List.sum_cons] at hsum
      exact List.forall_mem_cons.mpr ⟨by omega, ih hrest (by omega)⟩

section Exactness

variable {isWord : Char → Bool} (hdelimiters : ∀ c ∈ delimiters, isWord c = false)
  {name : List Char} (hword : ∀ c ∈ name, isWord c = true) (hne : name ≠ [])

theorem Lexeme.uses_mul_length {l : Lexeme} :
    l.uses name * (name.length + 1) ≤ l.uses name * l.text.length ∧
      (l.uses name * (name.length + 1) = l.uses name * l.text.length →
        l.qualifies name = true → l.Mentions name) := by
  cases l with
  | qualifier name' gap =>
      by_cases hsame : name' = name
      · subst hsame
        simp only [uses, qualifies, text, Mentions, beq_self_eq_true, if_true,
          List.length_append, List.length_singleton]
        refine ⟨by omega, fun hlength _ => ⟨List.eq_nil_of_length_eq_zero ?_, ?_⟩⟩
        · omega
        · exact List.suffix_rfl
      · simp [uses, qualifies, hsame]
  | word | mark | verbatim => simp [uses, qualifies]

theorem Lexeme.replaceAll_of_mentions {l : Lexeme} (hqualifies : l.qualifies name = true)
    (hmentions : l.Mentions name) : replaceAll (name ++ ['.']) [] l.text = [] := by
  cases l with
  | qualifier name' gap =>
      have hname : name' = name := by simpa [qualifies] using hqualifies
      have hfound := markAll_append_old (dotted_ne_nil name) []
      rw [hmentions.1, hname, text, List.append_nil, replaceAll]
      rw [List.append_nil] at hfound
      rw [hfound]
      rfl
  | word | mark | verbatim => cases hqualifies

include hdelimiters in
theorem Scanned.uses_mul_count_dot {ls : List Lexeme} (h : Scanned isWord ls) :
    ∀ l ∈ ls, l.uses name * l.text.countP (· == '.') = l.uses name := by
  induction h with
  | nil => simp
  | @qualifier name' gap ls hname hgap hls ih =>
      refine List.forall_mem_cons.mpr ⟨?_, ih⟩
      have hcount : name'.countP (· == '.') = 0 :=
        List.count_eq_zero.mpr (not_mem_of_isWord hdelimiters hname)
      have hblank : gap.countP (· == '.') = 0 :=
        List.count_eq_zero.mpr fun h => (isGap_mem_delimiters (hgap '.' h)).2 rfl
      simp [Lexeme.text, hcount, hblank]
  | word _ _ _ ih | mark _ _ ih | verbatim _ _ _ ih =>
      exact List.forall_mem_cons.mpr ⟨by simp [Lexeme.uses, Lexeme.qualifies], ih⟩

include hdelimiters hword hne in
/--
Removing a name with its dot from the text removes the qualifier of that name and
nothing else, exactly when the text has the name in front of a dot nowhere else
and every such qualifier is written without blanks.
-/
theorem Scanned.replaceAll_eq_iff {ls : List Lexeme} (h : Scanned isWord ls) :
    replaceAll (name ++ ['.']) [] (textOf ls) = textOf (unqualify name ls) ↔
      ∀ l ∈ ls, l.Mentions name ↔ l.qualifies name = true := by
  have hmarks := h.markAll hdelimiters hword
  have hmentions := h.occurrences_ne_zero hdelimiters hword hne
  constructor
  · intro heq
    -- Dots and characters are counted: both sides lose the same number of each.
    have hremoved : ∀ p : Char → Bool,
        (ls.map fun l => occurrences (name ++ ['.']) l.text).sum *
            (name ++ ['.']).countP p =
          (ls.map fun l => l.uses name * l.text.countP p).sum := by
      intro p
      have htext := countP_replaceAll (dotted_ne_nil name) p [] (textOf ls)
      have hlexemes := countP_unqualify p name ls
      rw [heq, occurrences_eq_sum hmarks, List.countP_nil, Nat.mul_zero] at htext
      omega
    have hdots : (ls.map fun l => occurrences (name ++ ['.']) l.text).sum =
        (ls.map (Lexeme.uses name)).sum := by
      have hremoved := hremoved (· == '.')
      have hname : name.countP (· == '.') = 0 :=
        List.count_eq_zero.mpr (not_mem_of_isWord hdelimiters hword)
      rw [List.map_congr_left (h.uses_mul_count_dot hdelimiters)] at hremoved
      simpa [hname] using hremoved
    have hlengths : (ls.map fun l => l.uses name * (name.length + 1)).sum =
        (ls.map fun l => l.uses name * l.text.length).sum := by
      have hremoved := hremoved fun _ => true
      simp only [List.countP_true, List.length_append, List.length_singleton] at hremoved
      rw [← hremoved, hdots, List.sum_map_mul_right]
    have hgaps := eq_of_sum_map_eq (fun l _ => Lexeme.uses_mul_length.1) hlengths
    have hfound : ∀ l ∈ ls, l.uses name ≤ occurrences (name ++ ['.']) l.text := by
      intro l hl
      cases hqualifies : l.qualifies name with
      | false => simp [Lexeme.uses, hqualifies]
      | true =>
          have hmention := Lexeme.uses_mul_length.2 (hgaps l hl) hqualifies
          have hpos := (hmentions l hl).mpr hmention
          simp only [Lexeme.uses, hqualifies, if_true]
          omega
    intro l hl
    have hsame := eq_of_sum_map_eq hfound hdots.symm l hl
    rw [← hmentions l hl, ← hsame]
    simp [Lexeme.uses]
  · intro hexact
    rw [replaceAll_eq_flatMap hmarks, textOf_unqualify]
    refine List.flatMap_congr fun l hl => ?_
    cases hqualifies : l.qualifies name with
    | true => exact Lexeme.replaceAll_of_mentions hqualifies ((hexact l hl).mpr hqualifies)
    | false =>
        have hnot : ¬ l.Mentions name := by simp [hexact l hl, hqualifies]
        rw [← hmentions l hl, not_not, occurrences_eq_zero_iff (dotted_ne_nil name)] at hnot
        rw [replaceAll_of_absent (dotted_ne_nil name) hnot]
        rfl

end Exactness

end PgMesh.Foundation
