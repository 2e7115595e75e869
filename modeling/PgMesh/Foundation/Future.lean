import PgMesh.Foundation.GoError

/-!
# Write-once futures

A future is settled at most once: `sync.Once` makes a second `resolve` a
no-op, and the `done` channel makes the first one visible to every waiter.
-/

namespace PgMesh.Foundation

/-- `none` until the future is resolved to a value and a possibly nil error. -/
structure Future (τ ε : Type) where
  outcome : Option (τ × Option (GoError ε))

namespace Future

variable {τ ε : Type}

def new : Future τ ε := ⟨none⟩

def resolve (f : Future τ ε) (value : τ) (err : Option (GoError ε)) :
    Future τ ε :=
  match f.outcome with
  | some _ => f
  | none => ⟨some (value, err)⟩

def resolved (value : τ) (err : Option (GoError ε)) : Future τ ε :=
  new.resolve value err

/-- `Await` with a context that is never cancelled; `none` means it blocks. -/
def await (f : Future τ ε) : Option (τ × Option (GoError ε)) := f.outcome

@[simp] theorem new_outcome : (new : Future τ ε).outcome = none := rfl

theorem resolve_of_pending {f : Future τ ε} (h : f.outcome = none) (value : τ)
    (err : Option (GoError ε)) :
    (f.resolve value err).outcome = some (value, err) := by
  simp [resolve, h]

theorem resolve_outcome_of_settled {f : Future τ ε}
    {settled : τ × Option (GoError ε)} (h : f.outcome = some settled)
    (value : τ) (err : Option (GoError ε)) :
    (f.resolve value err).outcome = some settled := by
  simp [resolve, h]

end Future

end PgMesh.Foundation
