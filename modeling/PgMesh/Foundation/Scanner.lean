import Mathlib.Data.List.Infix

/-!
# Loops that read a text

A scanner reads a text from left to right.  One round looks at the whole rest of
the text, takes at least its first element, and may add to the output.  The
position of the loop is the text that is left, so the index into the text `s` is
`s.length - rest.length`.
-/

namespace PgMesh.Foundation

structure Scanner (α τ : Type) where
  /-- What a round adds to the output, and the text it leaves. -/
  step : α → List α → List τ × List α
  suffix : ∀ c rest, (step c rest).2 <:+ rest

namespace Scanner

variable {α τ : Type} (S : Scanner α τ)

/-- The rounds of the loop: the text at the beginning of each, and its output. -/
def rounds : List α → List (List α × List τ)
  | [] => []
  | c :: rest => (c :: rest, (S.step c rest).1) :: rounds (S.step c rest).2
termination_by s => s.length
decreasing_by
  have := (S.suffix c rest).length_le
  simp only [List.length_cons]
  omega

def scan (s : List α) : List τ := (S.rounds s).flatMap Prod.snd

/-- The values of the index at the beginning of each round. -/
def indices (s : List α) : List Nat := (S.rounds s).map fun round => s.length - round.1.length

/-- The loop begins a round with this rest of the text, or ends with it. -/
inductive Arrives : List α → List α → Prop where
  | here (s : List α) : Arrives s s
  | later {c : α} {rest r : List α} (h : Arrives (S.step c rest).2 r) : Arrives (c :: rest) r

/-- Rule of induction that follows the rounds. -/
theorem induction {P : List α → Prop} (nil : P [])
    (cons : ∀ c rest, P (S.step c rest).2 → P (c :: rest)) (s : List α) : P s := by
  induction hn : s.length using Nat.strongRecOn generalizing s with
  | ind n ih =>
      cases s with
      | nil => exact nil
      | cons c rest =>
          have hle := (S.suffix c rest).length_le
          rw [List.length_cons] at hn
          exact cons c rest (ih _ (by omega) _ rfl)

@[simp] theorem scan_nil : S.scan [] = [] := by
  rw [scan, rounds]
  rfl

theorem scan_cons (c : α) (rest : List α) :
    S.scan (c :: rest) = (S.step c rest).1 ++ S.scan (S.step c rest).2 := by
  rw [scan, rounds, List.flatMap_cons]
  rfl

theorem scan_of_step {c : α} {rest rest' : List α} {out : List τ}
    (h : S.step c rest = (out, rest')) : S.scan (c :: rest) = out ++ S.scan rest' := by
  rw [scan_cons, h]

/-- A round begins with what the rounds before it left. -/
theorem rounds_suffix (s : List α) : ∀ round ∈ S.rounds s, round.1 <:+ s := by
  induction s using S.induction with
  | nil =>
      rw [rounds]
      simp
  | cons c rest ih =>
      rw [rounds]
      refine List.forall_mem_cons.mpr ⟨List.suffix_rfl, fun round hround => ?_⟩
      exact (ih round hround).trans ((S.suffix c rest).trans (List.suffix_cons c rest))

theorem rounds_shrink (s : List α) :
    (S.rounds s).Pairwise fun a b => b.1.length < a.1.length := by
  induction s using S.induction with
  | nil =>
      rw [rounds]
      exact .nil
  | cons c rest ih =>
      rw [rounds]
      refine List.pairwise_cons.mpr ⟨fun round hround => ?_, ih⟩
      have hle := ((S.rounds_suffix _ round hround).trans (S.suffix c rest)).length_le
      simp only [List.length_cons]
      omega

/-- The index grows with every round. -/
theorem indices_increase (s : List α) : (S.indices s).Pairwise (· < ·) := by
  refine List.pairwise_map.mpr (List.Pairwise.imp_of_mem ?_ (S.rounds_shrink s))
  intro a b ha hb hlt
  have hle := (S.rounds_suffix s a ha).length_le
  omega

theorem indices_lt (s : List α) : ∀ i ∈ S.indices s, i < s.length := by
  intro i hi
  obtain ⟨round, hround, rfl⟩ := List.mem_map.mp hi
  have hpos : 0 < round.1.length := by
    induction s using S.induction with
    | nil =>
        rw [rounds] at hround
        cases hround
    | cons c rest ih =>
        rw [rounds] at hround
        rcases List.mem_cons.mp hround with rfl | hround
        · simp
        · exact ih hround (List.mem_map.mpr ⟨round, hround, rfl⟩)
  have hle := (S.rounds_suffix s round hround).length_le
  omega

/-- The loop ends with the text. -/
theorem arrives_nil (s : List α) : S.Arrives s [] := by
  induction s using S.induction with
  | nil => exact .here []
  | cons c rest ih => exact .later ih

variable {S}

theorem Arrives.suffix {s r : List α} (h : S.Arrives s r) : r <:+ s := by
  induction h with
  | here s => exact List.suffix_rfl
  | @later c rest r h ih => exact ih.trans ((S.suffix c rest).trans (List.suffix_cons c rest))

theorem Arrives.trans {s r r' : List α} (h : S.Arrives s r) (h' : S.Arrives r r') :
    S.Arrives s r' := by
  induction h with
  | here s => exact h'
  | later _ ih => exact .later (ih h')

end Scanner

end PgMesh.Foundation
