import Mathlib.Data.List.DropRight
import Mathlib.Data.List.Forall2

/-!
# Texts

Facts about lists of characters: numbers in decimal, separators, white space
at the ends, and slices by bytes.
-/

namespace PgMesh.Foundation

/-! ## Decimal numbers -/

theorem toDigits_of_toString_eq {i j : Nat} (h : toString i = toString j) :
    Nat.toDigits 10 i = Nat.toDigits 10 j := by
  have hlist : (toString i).toList = (toString j).toList := congrArg String.toList h
  simpa only [Nat.toString_eq_repr, Nat.toList_repr] using hlist

theorem toString_nat_inj {i j : Nat} : toString i = toString j ↔ i = j := by
  constructor
  · intro h
    have hparsed := congrArg (fun digits => Nat.ofDigitChars 10 digits 0)
      (toDigits_of_toString_eq h)
    simpa using hparsed
  · intro h
    rw [h]

theorem isDigit_of_mem_toString_nat {i : Nat} {c : Char} (h : c ∈ (toString i).toList) :
    c.isDigit = true := by
  rw [Nat.toString_eq_repr, Nat.toList_repr] at h
  exact Nat.isDigit_of_mem_toDigits (by decide) (by decide) h

variable {α : Type}

/-- A property of the elements of a list that is checked by evaluation. -/
theorem forall_mem_of_all {p : α → Prop} [DecidablePred p] {l : List α}
    (h : (l.all fun x => decide (p x)) = true) : ∀ x ∈ l, p x := by
  simpa using h

/-! ## Separators -/

/-- A list is cut in one way at its first element with `p`. -/
theorem append_first_inj {p : α → Prop} {a a' b b' : List α} {x x' : α}
    (ha : ∀ y ∈ a, ¬ p y) (ha' : ∀ y ∈ a', ¬ p y) (hx : p x) (hx' : p x') :
    a ++ x :: b = a' ++ x' :: b' ↔ a = a' ∧ x = x' ∧ b = b' := by
  induction a generalizing a' with
  | nil =>
      cases a' with
      | nil => simp
      | cons y a' =>
          have hne : x ≠ y := fun h => ha' y List.mem_cons_self (h ▸ hx)
          simp [hne]
  | cons y a ih =>
      cases a' with
      | nil =>
          have hne : y ≠ x' := fun h => ha y List.mem_cons_self (h ▸ hx')
          simp [hne]
      | cons y' a' =>
          have hrest := @ih a' (fun z h => ha z (List.mem_cons_of_mem _ h))
            (fun z h => ha' z (List.mem_cons_of_mem _ h))
          simp [hrest, and_assoc]

theorem append_separator_inj {c : α} {a a' b b' : List α} (ha : c ∉ a)
    (ha' : c ∉ a') : a ++ c :: b = a' ++ c :: b' ↔ a = a' ∧ b = b' := by
  have h := @append_first_inj α (· = c) a a' b b' c c (fun y hy hyc => ha (hyc ▸ hy))
    (fun y hy hyc => ha' (hyc ▸ hy)) rfl rfl
  simpa using h

/-- A list has no separator, or it is cut at the first one. -/
theorem cut_induction [DecidableEq α] {c : α} {P : List α → Prop}
    (whole : ∀ l, c ∉ l → P l)
    (cut : ∀ before after, c ∉ before → P after → P (before ++ c :: after))
    (l : List α) : P l := by
  induction hn : l.length using Nat.strongRecOn generalizing l with
  | ind n ih =>
      by_cases hmem : c ∈ l
      · obtain ⟨before, after, rfl, hbefore⟩ := List.eq_append_cons_of_mem hmem
        rw [List.length_append, List.length_cons] at hn
        exact cut before after hbefore (ih after.length (by omega) after rfl)
      · exact whole l hmem

/-! ## White space at the ends -/

section Trim

variable (p : α → Bool)

/-- What is left when the elements with `p` are removed at both ends. -/
def trim (l : List α) : List α := (l.dropWhile p).rdropWhile p

/-- A list with elements around it that have `p`. -/
def Padded (core padded : List α) : Prop :=
  ∃ before after, padded = before ++ core ++ after ∧
    (∀ x ∈ before, p x = true) ∧ ∀ x ∈ after, p x = true

/-- Neither the first nor the last element has `p`. -/
def Trimmed (l : List α) : Prop :=
  (∀ x ∈ l.head?, p x = false) ∧ ∀ x ∈ l.getLast?, p x = false

variable {p}

theorem dropWhile_of_head {l : List α} (h : ∀ x ∈ l.head?, p x = false) :
    l.dropWhile p = l := by
  cases l with
  | nil => rfl
  | cons x l =>
      have hx : p x = false := h x rfl
      rw [List.dropWhile_cons_of_neg (by simp [hx])]

theorem rdropWhile_of_getLast {l : List α} (h : ∀ x ∈ l.getLast?, p x = false) :
    l.rdropWhile p = l := by
  rw [List.rdropWhile_eq_self_iff]
  intro hne
  simp [h _ (List.getLast?_eq_getLast_of_ne_nil hne)]

theorem trimmed_trim (l : List α) : Trimmed p (trim p l) := by
  constructor
  · intro x hx
    -- Trimming on the right leaves the first element.
    have hprefix : trim p l <+: l.dropWhile p := List.rdropWhile_prefix p _
    cases htrim : trim p l with
    | nil =>
        rw [htrim] at hx
        cases hx
    | cons y rest =>
        rw [htrim] at hx hprefix
        cases hx
        obtain ⟨after, hafter⟩ := hprefix
        have hhead := List.head?_dropWhile_not p l
        rw [← hafter] at hhead
        exact hhead
  · intro x hx
    by_cases hne : trim p l = []
    · rw [hne] at hx
      cases hx
    · have hlast := List.rdropWhile_last_not p (l.dropWhile p) hne
      rw [List.getLast?_eq_getLast_of_ne_nil hne] at hx
      cases hx
      simpa [trim] using hlast

theorem padded_trim (l : List α) : Padded p (trim p l) l := by
  refine ⟨l.takeWhile p, (l.dropWhile p).rtakeWhile p, ?_, ?_, ?_⟩
  · rw [List.append_assoc, trim, List.rdropWhile_append_rtakeWhile,
      List.takeWhile_append_dropWhile]
  · intro x hx
    exact List.mem_takeWhile_imp hx
  · intro x hx
    exact List.mem_rtakeWhile_imp hx

theorem trim_of_padded {core padded : List α} (h : Padded p core padded)
    (hcore : Trimmed p core) : trim p padded = core := by
  obtain ⟨before, after, rfl, hbefore, hafter⟩ := h
  unfold trim
  rw [List.append_assoc, List.dropWhile_append_of_pos hbefore]
  have hright : (core ++ after).rdropWhile p = core := by
    induction after using List.reverseRecOn with
    | nil => rw [List.append_nil, rdropWhile_of_getLast hcore.2]
    | append_singleton after x ih =>
        rw [← List.append_assoc, List.rdropWhile_concat_pos _ _ _ (hafter x (by simp))]
        exact ih fun y hy => hafter y (by simp [hy])
  cases core with
  | nil =>
      rw [List.nil_append, List.dropWhile_eq_nil_iff.mpr hafter, List.rdropWhile_nil]
  | cons y core =>
      rw [dropWhile_of_head (l := y :: core ++ after) hcore.1, hright]

theorem Trimmed.trim_eq {l : List α} (h : Trimmed p l) : trim p l = l :=
  trim_of_padded ⟨[], [], by simp, by simp, by simp⟩ h

theorem trim_eq_iff {l core : List α} :
    trim p l = core ↔ Padded p core l ∧ Trimmed p core := by
  constructor
  · rintro rfl
    exact ⟨padded_trim l, trimmed_trim l⟩
  · rintro ⟨hpadded, htrimmed⟩
    exact trim_of_padded hpadded htrimmed

theorem Trimmed.nil : Trimmed p [] := by
  simp [Trimmed]

theorem Trimmed.of_all {l : List α} (h : ∀ x ∈ l, p x = false) : Trimmed p l :=
  ⟨fun x hx => h x (List.mem_of_head? hx), fun x hx => h x (List.mem_of_getLast? hx)⟩

theorem trim_eq_nil_iff {l : List α} : trim p l = [] ↔ ∀ x ∈ l, p x = true := by
  rw [trim_eq_iff]
  constructor
  · rintro ⟨⟨before, after, rfl, hbefore, hafter⟩, -⟩ x hx
    rw [List.append_nil, List.mem_append] at hx
    exact hx.elim (hbefore x) (hafter x)
  · intro h
    exact ⟨⟨l, [], by simp, h, by simp⟩, .nil⟩

/-- A first element that stays begins the trimmed list. -/
theorem trim_cons {x : α} (hx : p x = false) (l : List α) :
    ∃ rest, trim p (x :: l) = x :: rest := by
  have hpadded := padded_trim (p := p) (x :: l)
  generalize trim p (x :: l) = core at hpadded ⊢
  obtain ⟨before, after, hl, hbefore, hafter⟩ := hpadded
  cases before with
  | cons y before =>
      cases hl
      rw [hbefore x List.mem_cons_self] at hx
      cases hx
  | nil =>
      cases core with
      | nil =>
          rw [List.nil_append, List.nil_append] at hl
          rw [hafter x (hl ▸ List.mem_cons_self)] at hx
          cases hx
      | cons y rest =>
          cases hl
          exact ⟨rest, rfl⟩

theorem Padded.trans {inner middle outer : List α} (h : Padded p inner middle)
    (h' : Padded p middle outer) : Padded p inner outer := by
  obtain ⟨before, after, rfl, hbefore, hafter⟩ := h
  obtain ⟨before', after', rfl, hbefore', hafter'⟩ := h'
  refine ⟨before' ++ before, after ++ after', by simp, ?_, ?_⟩
  · intro x hx
    exact (List.mem_append.mp hx).elim (hbefore' x) (hbefore x)
  · intro x hx
    exact (List.mem_append.mp hx).elim (hafter x) (hafter' x)

theorem trim_congr {l l' : List α} (h : Padded p l l') : trim p l' = trim p l :=
  trim_of_padded ((padded_trim l).trans h) (trimmed_trim l)

variable [DecidableEq α] {c : α}

theorem map_trim_splitOn_append_left (hc : p c = false) {before : List α}
    (hbefore : ∀ x ∈ before, p x = true) (l : List α) :
    ((before ++ l).splitOn c).map (trim p) = (l.splitOn c).map (trim p) := by
  have hnot : c ∉ before := by
    intro hmem
    rw [hbefore c hmem] at hc
    cases hc
  have hpad : ∀ m, trim p (before ++ m) = trim p m :=
    fun m => trim_congr ⟨before, [], by simp, hbefore, by simp⟩
  by_cases hmem : c ∈ l
  · obtain ⟨first, rest, rfl, hfirst⟩ := List.eq_append_cons_of_mem hmem
    rw [← List.append_assoc, List.splitOn_append_cons_self_of_not_mem (by simp [hnot, hfirst]),
      List.splitOn_append_cons_self_of_not_mem hfirst, List.map_cons, List.map_cons, hpad]
  · rw [List.splitOn_eq_singleton (by simp [hnot, hmem]), List.splitOn_eq_singleton hmem,
      List.map_singleton, List.map_singleton, hpad]

theorem map_trim_splitOn_append_right (hc : p c = false) {after : List α}
    (hafter : ∀ x ∈ after, p x = true) (l : List α) :
    ((l ++ after).splitOn c).map (trim p) = (l.splitOn c).map (trim p) := by
  have hnot : c ∉ after := by
    intro hmem
    rw [hafter c hmem] at hc
    cases hc
  induction l using cut_induction (c := c) with
  | whole l hl =>
      rw [List.splitOn_eq_singleton (by simp [hnot, hl]), List.splitOn_eq_singleton hl,
        List.map_singleton, List.map_singleton,
        trim_congr (l := l) ⟨[], after, by simp, by simp, hafter⟩]
  | cut before rest hbefore ih =>
      rw [List.append_assoc, List.cons_append,
        List.splitOn_append_cons_self_of_not_mem hbefore,
        List.splitOn_append_cons_self_of_not_mem hbefore, List.map_cons, List.map_cons, ih]

/-- The trimmed parts do not change when the whole is trimmed first. -/
theorem map_trim_splitOn_trim (hc : p c = false) (l : List α) :
    ((trim p l).splitOn c).map (trim p) = (l.splitOn c).map (trim p) := by
  obtain ⟨before, after, hl, hbefore, hafter⟩ := padded_trim (p := p) l
  conv_rhs => rw [hl, map_trim_splitOn_append_right hc hafter,
    map_trim_splitOn_append_left hc hbefore]

end Trim

/-! ## Slices by bytes -/

def byteLength : List Char → Nat
  | [] => 0
  | c :: s => c.utf8Size + byteLength s

/-- `s[n:]`, or nothing when the offset is out of range or inside a character. -/
def dropBytes : Nat → List Char → Option (List Char)
  | 0, s => some s
  | _ + 1, [] => none
  | n + 1, c :: s => if c.utf8Size ≤ n + 1 then dropBytes (n + 1 - c.utf8Size) s else none

/-- `s[:n]`, or nothing when the offset is out of range or inside a character. -/
def takeBytes : Nat → List Char → Option (List Char)
  | 0, _ => some []
  | _ + 1, [] => none
  | n + 1, c :: s =>
      if c.utf8Size ≤ n + 1 then (takeBytes (n + 1 - c.utf8Size) s).map (c :: ·) else none

/-- `s[low:high]`. -/
def slice (s : List Char) (low high : Nat) : Option (List Char) :=
  (takeBytes high s).bind (dropBytes low)

@[simp] theorem byteLength_append (s t : List Char) :
    byteLength (s ++ t) = byteLength s + byteLength t := by
  induction s with
  | nil => simp [byteLength]
  | cons c s ih => simp [byteLength, ih, Nat.add_assoc]

theorem byteLength_cons (c : Char) (s : List Char) :
    byteLength (c :: s) = (c.utf8Size - 1 + byteLength s) + 1 := by
  have hpos := c.utf8Size_pos
  rw [byteLength]
  omega

theorem utf8Size_ascii {c : Char} (h : c.toNat < 128) : c.utf8Size = 1 := by
  have hval : c.val ≤ 127 := by
    rw [UInt32.le_iff_toNat_le]
    exact Nat.le_of_lt_succ h
  simp [Char.utf8Size, hval]

theorem byteLength_ascii {s : List Char} (h : ∀ c ∈ s, c.toNat < 128) :
    byteLength s = s.length := by
  induction s with
  | nil => rfl
  | cons c s ih =>
      obtain ⟨hc, hs⟩ := List.forall_mem_cons.mp h
      rw [byteLength, utf8Size_ascii hc, ih hs, List.length_cons, Nat.add_comm]

theorem dropBytes_append (start rest : List Char) :
    dropBytes (byteLength start) (start ++ rest) = some rest := by
  induction start with
  | nil => simp [byteLength, dropBytes]
  | cons c start ih =>
      have hpos := c.utf8Size_pos
      rw [byteLength_cons, List.cons_append, dropBytes, if_pos (by omega)]
      rw [show c.utf8Size - 1 + byteLength start + 1 - c.utf8Size = byteLength start by omega]
      exact ih

theorem takeBytes_append (start rest : List Char) :
    takeBytes (byteLength start) (start ++ rest) = some start := by
  induction start with
  | nil => simp [byteLength, takeBytes]
  | cons c start ih =>
      have hpos := c.utf8Size_pos
      rw [byteLength_cons, List.cons_append, takeBytes, if_pos (by omega)]
      rw [show c.utf8Size - 1 + byteLength start + 1 - c.utf8Size = byteLength start by omega]
      rw [ih, Option.map_some]

/-- Offsets between characters cut out what stands between them. -/
theorem slice_append (start middle rest : List Char) :
    slice (start ++ middle ++ rest) (byteLength start) (byteLength (start ++ middle)) =
      some middle := by
  rw [slice, takeBytes_append, Option.bind_some, dropBytes_append]

theorem slice_drop (start rest : List Char) :
    slice (start ++ rest) (byteLength start) (byteLength (start ++ rest)) = some rest := by
  have h := slice_append start rest []
  rwa [List.append_nil] at h

/-- `strings.IndexByte` for an ASCII character. -/
def indexByte (s : List Char) (c : Char) : Option Nat :=
  if c ∈ s then some (byteLength (s.takeWhile (· != c))) else none

theorem indexByte_append {c : Char} {before : List Char} (h : c ∉ before)
    (after : List Char) :
    indexByte (before ++ c :: after) c = some (byteLength before) := by
  have hbefore : ∀ x ∈ before, (x != c) = true := by
    intro x hx
    simp only [bne_iff_ne, ne_eq]
    rintro rfl
    exact h hx
  rw [indexByte, if_pos (by simp), List.takeWhile_append_of_pos hbefore]
  simp

end PgMesh.Foundation
