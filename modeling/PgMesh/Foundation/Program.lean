import Mathlib.Data.List.Basic

/-!
# Sequential programs that make requests

A program either is done or makes a request and goes on with the answer.  The
answers come from outside, so a program has one run for each way in which its
requests can be answered.
-/

namespace PgMesh.Foundation

variable {Q : Type} {A : Q → Type} {α β : Type}

/-- `A request` is the type of the answers to a request. -/
inductive Program (Q : Type) (A : Q → Type) (α : Type) where
  | done (value : α)
  | ask (request : Q) (next : A request → Program Q A α)

/-- A request with the answer that it was given. -/
structure Event (Q : Type) (A : Q → Type) where
  request : Q
  answer : A request

namespace Program

def bind : Program Q A α → (α → Program Q A β) → Program Q A β
  | .done value, f => f value
  | .ask request next, f => .ask request fun answer => (next answer).bind f

/-- The program, after these requests and answers, is left with the second program. -/
inductive Runs : Program Q A α → List (Event Q A) → Program Q A α → Prop
  | refl (p : Program Q A α) : Runs p [] p
  | ask {request : Q} {next : A request → Program Q A α} {answer : A request}
      {events : List (Event Q A)} {p : Program Q A α} :
      Runs (next answer) events p →
        Runs (.ask request next) (⟨request, answer⟩ :: events) p

/-- The run in which every request gets the same answer each time. -/
def eval (answers : (request : Q) → A request) :
    Program Q A α → List (Event Q A) × α
  | .done value => ([], value)
  | .ask request next =>
      let (events, value) := (next (answers request)).eval answers
      (⟨request, answers request⟩ :: events, value)

/-- Every request that the program can ever make satisfies `P`. -/
def Asks (P : Q → Prop) : Program Q A α → Prop
  | .done _ => True
  | .ask request next => P request ∧ ∀ answer, (next answer).Asks P

theorem runs_eval (answers : (request : Q) → A request) (p : Program Q A α) :
    p.Runs (p.eval answers).1 (.done (p.eval answers).2) := by
  induction p with
  | done value => exact .refl _
  | ask request next ih => exact .ask (ih (answers request))

theorem answer_eq_of_mem_eval {answers : (request : Q) → A request} {p : Program Q A α}
    {event : Event Q A} (h : event ∈ (p.eval answers).1) :
    event.answer = answers event.request := by
  induction p with
  | done value => cases h
  | ask request next ih =>
      rcases List.mem_cons.mp h with rfl | hrest
      · rfl
      · exact ih _ hrest

@[simp] theorem runs_done {value : α} {events : List (Event Q A)}
    {p : Program Q A α} :
    (Program.done value).Runs events p ↔ events = [] ∧ p = .done value := by
  constructor
  · intro h
    cases h
    exact ⟨rfl, rfl⟩
  · rintro ⟨rfl, rfl⟩
    exact .refl _

theorem runs_ask_done {request : Q} {next : A request → Program Q A α}
    {events : List (Event Q A)} {value : α} :
    (Program.ask request next).Runs events (.done value) ↔
      ∃ answer rest, events = ⟨request, answer⟩ :: rest ∧
        (next answer).Runs rest (.done value) := by
  constructor
  · intro h
    cases h with
    | ask h => exact ⟨_, _, rfl, h⟩
  · rintro ⟨answer, rest, rfl, h⟩
    exact .ask h

theorem Runs.append {p p' p'' : Program Q A α} {events events' : List (Event Q A)}
    (h : p.Runs events p') (h' : p'.Runs events' p'') :
    p.Runs (events ++ events') p'' := by
  induction h with
  | refl p => exact h'
  | ask _ ih => exact .ask (ih h')

/-- A run of a sequence is a run of its first part followed by one of its second part. -/
theorem runs_bind_done {p : Program Q A α} {f : α → Program Q A β}
    {events : List (Event Q A)} {value : β} :
    (p.bind f).Runs events (.done value) ↔
      ∃ before a after, events = before ++ after ∧ p.Runs before (.done a) ∧
        (f a).Runs after (.done value) := by
  induction p generalizing events with
  | done a =>
      constructor
      · intro h
        exact ⟨[], a, events, rfl, .refl _, h⟩
      · rintro ⟨before, a', after, rfl, hbefore, hafter⟩
        obtain ⟨rfl, heq⟩ := runs_done.mp hbefore
        cases heq
        exact hafter
  | ask request next ih =>
      simp only [bind, runs_ask_done]
      constructor
      · rintro ⟨answer, rest, rfl, hrest⟩
        obtain ⟨before, a, after, rfl, hbefore, hafter⟩ := (ih answer).mp hrest
        exact ⟨⟨request, answer⟩ :: before, a, after, rfl,
          ⟨answer, before, rfl, hbefore⟩, hafter⟩
      · rintro ⟨_, a, after, rfl, ⟨answer, before, rfl, hbefore⟩, hafter⟩
        exact ⟨answer, before ++ after, rfl,
          (ih answer).mpr ⟨before, a, after, rfl, hbefore, hafter⟩⟩

theorem Asks.bind {P : Q → Prop} {p : Program Q A α} {f : α → Program Q A β}
    (hp : p.Asks P) (hf : ∀ a, (f a).Asks P) : (p.bind f).Asks P := by
  induction p with
  | done a => exact hf a
  | ask request next ih => exact ⟨hp.1, fun answer => ih answer (hp.2 answer)⟩

/-- What a program can ask bounds what it has asked, in a run that need not be over. -/
theorem Asks.of_runs {P : Q → Prop} {p p' : Program Q A α}
    {events : List (Event Q A)} (hp : p.Asks P) (h : p.Runs events p') :
    ∀ event ∈ events, P event.request := by
  induction h with
  | refl p => simp
  | ask _ ih =>
      intro event hevent
      rcases List.mem_cons.mp hevent with rfl | hevent
      · exact hp.1
      · exact ih (hp.2 _) event hevent

end Program

end PgMesh.Foundation
