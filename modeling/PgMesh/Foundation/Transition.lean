import Mathlib.Data.List.Basic

/-!
# Partial deterministic transition systems

A system is given by `step : σ → ι → Option σ`.  The label carries every
choice of the environment, so an interleaving of concurrent activities is a
list of labels, and a blocked activity is a label on which `step` is `none`.
-/

namespace PgMesh.Foundation

variable {σ τ ι κ : Type*}

/-- Execute a list of labels; `none` means that some label was blocked. -/
def runFrom (step : σ → ι → Option σ) : σ → List ι → Option σ
  | s, [] => some s
  | s, label :: labels =>
      match step s label with
      | none => none
      | some next => runFrom step next labels

/-- Some run leads from `s` to `t`. -/
def Reaches (step : σ → ι → Option σ) (s t : σ) : Prop :=
  ∃ labels, runFrom step s labels = some t

variable {step : σ → ι → Option σ} {s t u : σ} {label : ι} {labels : List ι}

@[simp] theorem runFrom_nil (s : σ) : runFrom step s [] = some s := rfl

theorem runFrom_cons_eq_some :
    runFrom step s (label :: labels) = some u ↔
      ∃ t, step s label = some t ∧ runFrom step t labels = some u := by
  simp only [runFrom]
  cases hstep : step s label with
  | none => simp
  | some next => simp

theorem runFrom_append_eq_some {first second : List ι} :
    runFrom step s (first ++ second) = some u ↔
      ∃ t, runFrom step s first = some t ∧ runFrom step t second = some u := by
  induction first generalizing s with
  | nil => simp
  | cons label first ih =>
      rw [List.cons_append, runFrom_cons_eq_some]
      constructor
      · rintro ⟨next, hstep, hrest⟩
        obtain ⟨t, hfirst, hsecond⟩ := ih.mp hrest
        exact ⟨t, runFrom_cons_eq_some.mpr ⟨next, hstep, hfirst⟩, hsecond⟩
      · rintro ⟨t, hfirst, hsecond⟩
        obtain ⟨next, hstep, hrest⟩ := runFrom_cons_eq_some.mp hfirst
        exact ⟨next, hstep, ih.mpr ⟨t, hrest, hsecond⟩⟩

theorem Reaches.refl (s : σ) : Reaches step s s := ⟨[], rfl⟩

theorem Reaches.trans (first : Reaches step s t) (second : Reaches step t u) :
    Reaches step s u := by
  obtain ⟨before, hbefore⟩ := first
  obtain ⟨after, hafter⟩ := second
  exact ⟨before ++ after, runFrom_append_eq_some.mpr ⟨t, hbefore, hafter⟩⟩

theorem Reaches.single (h : step s label = some t) : Reaches step s t :=
  ⟨[label], runFrom_cons_eq_some.mpr ⟨t, h, rfl⟩⟩

theorem Reaches.tail (first : Reaches step s t) (h : step t label = some u) :
    Reaches step s u :=
  first.trans (.single h)

/-- The invariant rule: what every step preserves, every run preserves. -/
theorem Reaches.invariant {P : σ → Prop} (h : Reaches step s t) (start : P s)
    (preserved : ∀ {s label t}, P s → step s label = some t → P t) : P t := by
  obtain ⟨labels, hrun⟩ := h
  induction labels generalizing s with
  | nil =>
      cases hrun
      exact start
  | cons label labels ih =>
      obtain ⟨next, hstep, hrest⟩ := runFrom_cons_eq_some.mp hrun
      exact ih (preserved start hstep) hrest

/--
The two-state form of the invariant rule.  A preorder that relates the two
ends of every step out of a state satisfying the invariant `P` relates the
two ends of every run.
-/
theorem Reaches.relation {P : σ → Prop} {R : σ → σ → Prop}
    (h : Reaches step s t) (start : P s)
    (preserved : ∀ {s label t}, P s → step s label = some t → P t)
    (refl : ∀ s, R s s) (trans : ∀ {s t u}, R s t → R t u → R s u)
    (single : ∀ {s label t}, P s → step s label = some t → R s t) :
    R s t := by
  obtain ⟨labels, hrun⟩ := h
  induction labels generalizing s with
  | nil =>
      cases hrun
      exact refl _
  | cons label labels ih =>
      obtain ⟨next, hstep, hrest⟩ := runFrom_cons_eq_some.mp hrun
      exact trans (single start hstep) (ih (preserved start hstep) hrest)

end PgMesh.Foundation
