import PgMesh.Foundation.Program
import Mathlib.Algebra.Group.Defs

/-!
# Shares of a state

A program owns a share of a state that other programs change as well, and
`Update` says what a request with its answer makes of that share.  `Follows`
is what holds along every run of the program: it makes only requests that its
share allows, keeps an invariant of the share, and ends with the result and the
share as stated.
-/

namespace PgMesh.Foundation.Program

variable {Q Q' : Type} {A : Q → Type} {A' : Q' → Type} {W α β : Type}

instance : Monad (Program Q A) where
  pure := .done
  bind := Program.bind

@[simp] theorem pure_eq (value : α) : (pure value : Program Q A α) = .done value := rfl

@[simp] theorem bind_eq (p : Program Q A α) (f : α → Program Q A β) :
    p >>= f = p.bind f := rfl

def request (q : Q) : Program Q A (A q) := .ask q .done

/-- Each request is made by a program over other requests. -/
def translate (f : (q : Q) → Program Q' A' (A q)) : Program Q A α → Program Q' A' α
  | .done value => .done value
  | .ask q next => (f q).bind fun answer => (next answer).translate f

def Follows (Update : W → Event Q A → W → Prop) (inv : W → Prop) (post : α → W → Prop) :
    Program Q A α → W → Prop
  | .done value, w => inv w ∧ post value w
  | .ask q next, w =>
      inv w ∧ ∀ answer, ∃ w', Update w ⟨q, answer⟩ w' ∧ (next answer).Follows Update inv post w'

variable {Update : W → Event Q A → W → Prop} {I I' : W → Prop} {post post' : α → W → Prop}
  {w : W}

theorem Follows.inv {p : Program Q A α} (h : p.Follows Update I post w) : I w := by
  cases p with
  | done value => exact h.1
  | ask q next => exact h.1

theorem follows_request {q : Q} {post : A q → W → Prop} (hinv : I w)
    (h : ∀ answer, ∃ w', Update w ⟨q, answer⟩ w' ∧ I w' ∧ post answer w') :
    (request q : Program Q A (A q)).Follows Update I post w :=
  ⟨hinv, h⟩

/-- A sequence follows when its second part does after every end of its first part. -/
theorem Follows.bind {p : Program Q A α} {f : α → Program Q A β} {post' : β → W → Prop}
    (hp : p.Follows Update I post w)
    (hf : ∀ value w', I w' → post value w' → (f value).Follows Update I post' w') :
    (p.bind f).Follows Update I post' w := by
  induction p generalizing w with
  | done value => exact hf value w hp.1 hp.2
  | ask q next ih =>
      refine ⟨hp.1, fun answer => ?_⟩
      obtain ⟨w', hupdate, hnext⟩ := hp.2 answer
      exact ⟨w', hupdate, ih answer hnext⟩

theorem Follows.mono {p : Program Q A α} (hp : p.Follows Update I post w)
    (hinv : ∀ w, I w → I' w) (hpost : ∀ value w, I w → post value w → post' value w) :
    p.Follows Update I' post' w := by
  induction p generalizing w with
  | done value => exact ⟨hinv w hp.1, hpost value w hp.1 hp.2⟩
  | ask q next ih =>
      refine ⟨hinv w hp.1, fun answer => ?_⟩
      obtain ⟨w', hupdate, hnext⟩ := hp.2 answer
      exact ⟨w', hupdate, ih answer hnext⟩

theorem translate_asks {P : Q' → Prop} {f : (q : Q) → Program Q' A' (A q)}
    (hf : ∀ q, (f q).Asks P) (p : Program Q A α) : (p.translate f).Asks P := by
  induction p with
  | done value => trivial
  | ask q next ih => exact (hf q).bind ih

/-- A program whose requests leave a share alone. -/
theorem Asks.follows {P : Q → Prop} {p : Program Q A α} (hp : p.Asks P)
    (hupdate : ∀ q, P q → ∀ answer, Update w ⟨q, answer⟩ w) (hinv : I w)
    (hpost : ∀ value, post value w) : p.Follows Update I post w := by
  induction p with
  | done value => exact ⟨hinv, hpost value⟩
  | ask q next ih =>
      exact ⟨hinv, fun answer => ⟨w, hupdate q hp.1 answer, ih answer (hp.2 answer)⟩⟩

/-- What a program does with its share it does beside any share that `Update` leaves alone. -/
theorem Follows.frame [Add W] {p : Program Q A α} {rest : W} (hp : p.Follows Update I post w)
    (hframe : ∀ {w event w'}, Update w event w' → Update (rest + w) event (rest + w')) :
    p.Follows Update (fun v => ∃ w, v = rest + w ∧ I w)
      (fun value v => ∃ w, v = rest + w ∧ I w ∧ post value w) (rest + w) := by
  induction p generalizing w with
  | done value => exact ⟨⟨w, rfl, hp.1⟩, w, rfl, hp.1, hp.2⟩
  | ask q next ih =>
      refine ⟨⟨w, rfl, hp.1⟩, fun answer => ?_⟩
      obtain ⟨w', hupdate, hnext⟩ := hp.2 answer
      exact ⟨rest + w', hframe hupdate, ih answer hnext⟩

theorem Follows.beside [AddZeroClass W] {p : Program Q A α} {rest : W}
    (hp : p.Follows Update I post 0)
    (hframe : ∀ {w event w'}, Update w event w' → Update (rest + w) event (rest + w')) :
    p.Follows Update (fun v => ∃ w, v = rest + w ∧ I w)
      (fun value v => ∃ w, v = rest + w ∧ I w ∧ post value w) rest := by
  have hbeside := hp.frame hframe
  rwa [add_zero] at hbeside

end PgMesh.Foundation.Program
