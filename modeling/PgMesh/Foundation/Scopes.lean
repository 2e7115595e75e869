import Mathlib.Data.List.Nodup

/-!
# Names and scopes

A block of statements binds names one after another, uses names and contains
inner blocks.  A name that is bound stays visible to the end of its block.
-/

namespace PgMesh.Foundation

inductive Stmt (ν : Type) where
  | bind (name : ν)
  | use (names : List ν)
  | block (body : List (Stmt ν))

namespace Stmt

variable {ν : Type}

/-- The names that a statement binds in the block it stands in. -/
def binds : Stmt ν → List ν
  | bind name => [name]
  | use _ => []
  | block _ => []

/-- The names that a block binds itself. -/
def bound (body : List (Stmt ν)) : List ν := body.flatMap binds

mutual

/-- The uses in a statement, each with the names that are visible there. -/
def uses (env : List ν) : Stmt ν → List (List ν × List ν)
  | bind _ => []
  | use names => [(env, names)]
  | block body => usesIn env body

def usesIn (env : List ν) : List (Stmt ν) → List (List ν × List ν)
  | [] => []
  | stmt :: body => stmt.uses env ++ usesIn (stmt.binds ++ env) body

end

@[simp] theorem bound_nil : bound ([] : List (Stmt ν)) = [] := rfl

@[simp] theorem bound_cons (stmt : Stmt ν) (body : List (Stmt ν)) :
    bound (stmt :: body) = stmt.binds ++ bound body := rfl

@[simp] theorem bound_append (body body' : List (Stmt ν)) :
    bound (body ++ body') = bound body ++ bound body' := by
  simp [bound]

end Stmt

end PgMesh.Foundation
