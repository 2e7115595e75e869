import Mathlib.Data.List.Basic

/-!
# Go error values

`GoError ε` is the type `error` without `nil`; a possibly nil error is an
`Option (GoError ε)`.  The parameter `ε` collects the errors that come from
outside the modelled code, such as those of a database driver or a context.
An error made by `fmt.Errorf` is kept as its format and its arguments.
-/

namespace PgMesh.Foundation

/--
An argument of `fmt.Errorf`; `E` is the type of errors.  An argument made by
`fmt.Sprintf` is kept as its format and its arguments, too.
-/
inductive FormatArg (E : Type) where
  | wrapped (error : E)
  | text (value : String)
  | number (value : Int)
  | sprintf (format : String) (args : List String)

inductive GoError (ε : Type) where
  | external (error : ε)
  | new (text : String)
  | errorf (format : String) (args : List (FormatArg (GoError ε)))
  | joined (errors : List (GoError ε))

namespace GoError

variable {ε : Type}

/-- `errors.Join`, on a list that holds no nil error. -/
def join : List (GoError ε) → Option (GoError ε)
  | [] => none
  | error :: errors => some (.joined (error :: errors))

@[simp] theorem join_nil : join ([] : List (GoError ε)) = none := rfl

@[simp] theorem join_eq_none {errors : List (GoError ε)} :
    join errors = none ↔ errors = [] := by
  cases errors <;> simp [join]

theorem join_eq_some_of_ne_nil {errors : List (GoError ε)} (h : errors ≠ []) :
    join errors = some (.joined errors) := by
  cases errors with
  | nil => contradiction
  | cons error errors => rfl

end GoError

/-- A sequence of fallible steps succeeds when all of them do. -/
theorem bind_eq_ok {E α β : Type} {x : Except E α} {f : α → Except E β} {b : β} :
    x >>= f = .ok b ↔ ∃ a, x = .ok a ∧ f a = .ok b := by
  cases x with
  | error e => simp [bind, Except.bind]
  | ok a => simp [bind, Except.bind]

/-- The same for steps that can also panic, which is `none`. -/
theorem exceptT_bind_eq_ok {E α β : Type} {x : ExceptT E Option α}
    {f : α → ExceptT E Option β} {b : β} :
    (x >>= f).run = some (.ok b) ↔ ∃ a, x.run = some (.ok a) ∧ (f a).run = some (.ok b) := by
  rw [ExceptT.run_bind]
  cases x.run with
  | none => simp
  | some result =>
      cases result with
      | error e => simp
      | ok a => simp

theorem exceptT_bind_ne_none {E α β : Type} {x : ExceptT E Option α}
    {f : α → ExceptT E Option β} (hx : x.run ≠ none) (hf : ∀ a, (f a).run ≠ none) :
    (x >>= f).run ≠ none := by
  rw [ExceptT.run_bind]
  cases hrun : x.run with
  | none => exact absurd hrun hx
  | some result =>
      cases result with
      | error e => simp
      | ok a => simpa using hf a

theorem exists_of_mem_mapM {E α β : Type} {f : α → Except E β} {xs : List α}
    {ys : List β} (h : xs.mapM f = .ok ys) {y : β} (hy : y ∈ ys) :
    ∃ x ∈ xs, f x = .ok y := by
  induction xs generalizing ys with
  | nil =>
      cases h
      cases hy
  | cons x xs ih =>
      rw [List.mapM_cons] at h
      obtain ⟨y₀, hy₀, h⟩ := bind_eq_ok.mp h
      obtain ⟨ys₀, hys₀, h⟩ := bind_eq_ok.mp h
      cases h
      rcases List.mem_cons.mp hy with rfl | hy
      · exact ⟨x, List.mem_cons_self, hy₀⟩
      · obtain ⟨x', hx', hfx'⟩ := ih hys₀ hy
        exact ⟨x', List.mem_cons_of_mem _ hx', hfx'⟩

end PgMesh.Foundation
