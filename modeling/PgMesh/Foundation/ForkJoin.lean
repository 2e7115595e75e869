import PgMesh.Foundation.ListUpdate
import PgMesh.Foundation.Shares
import Mathlib.Algebra.BigOperators.Group.List.Basic
import Mathlib.Logic.Relation

/-!
# Calls that start goroutines and wait for them

A call runs by itself, starts its goroutines, waits until all of them have
returned and goes on with what they returned.  Any number of calls run at the
same time over one state.  If each call follows its shares, the state is at any
time what the shares of all calls and goroutines add up to.
-/

namespace PgMesh.Foundation

variable {Q : Type} {A : Q → Type} {σ W β τ α : Type}

structure ForkJoin (Q : Type) (A : Q → Type) where
  Local : Type
  Part : Type
  Result : Type
  before : Program Q A Local
  goroutines : Local → List (Program Q A Part)
  after : Local → List (Nat × Part) → Program Q A Result

/-- A call without goroutines. -/
def ForkJoin.sequential (p : Program Q A α) : ForkJoin Q A :=
  ⟨α, Empty, α, p, fun _ => [], fun value _ => .done value⟩

/-- Where a call is; a goroutine that has returned is `none`. -/
inductive Phase (Q : Type) (A : Q → Type) (β τ α : Type) where
  | before (p : Program Q A β)
  | forked (locals : β) (running : List (Option (Program Q A τ)))
      (completions : List (Nat × τ))
  | after (p : Program Q A α)
  | returned (value : α)

abbrev ForkJoin.Phase (call : ForkJoin Q A) :=
  Foundation.Phase Q A call.Local call.Part call.Result

/-- A step of a call, with the event if it makes a request. -/
inductive ForkJoin.Step (call : ForkJoin Q A) :
    call.Phase → Option (Event Q A) → call.Phase → Prop
  | before (q : Q) (next : A q → Program Q A call.Local) (answer : A q) :
      Step call (.before (.ask q next)) (some ⟨q, answer⟩) (.before (next answer))
  | fork (locals : call.Local) :
      Step call (.before (.done locals)) none
        (.forked locals ((call.goroutines locals).map some) [])
  | goroutine (locals : call.Local) (left right : List (Option (Program Q A call.Part)))
      (q : Q) (next : A q → Program Q A call.Part) (answer : A q)
      (completions : List (Nat × call.Part)) :
      Step call (.forked locals (left ++ some (.ask q next) :: right) completions)
        (some ⟨q, answer⟩)
        (.forked locals (left ++ some (next answer) :: right) completions)
  | finish (locals : call.Local) (left right : List (Option (Program Q A call.Part)))
      (value : call.Part) (completions : List (Nat × call.Part)) :
      Step call (.forked locals (left ++ some (.done value) :: right) completions) none
        (.forked locals (left ++ none :: right) (completions ++ [(left.length, value)]))
  | join (locals : call.Local) (running : List (Option (Program Q A call.Part)))
      (completions : List (Nat × call.Part)) :
      (∀ goroutine ∈ running, goroutine = none) →
        Step call (.forked locals running completions) none
          (.after (call.after locals completions))
  | after (q : Q) (next : A q → Program Q A call.Result) (answer : A q) :
      Step call (.after (.ask q next)) (some ⟨q, answer⟩) (.after (next answer))
  | return (value : call.Result) : Step call (.after (.done value)) none (.returned value)

variable {ι : Type*} {program : ι → ForkJoin Q A}

/-- Calls that run at the same time over one state. -/
structure System (program : ι → ForkJoin Q A) (σ : Type) where
  state : σ
  threads : List ((i : ι) × (program i).Phase)

namespace System

variable {serve : σ → Event Q A → σ → Prop} {s s' : System program σ}

/-- `serve` says how a request is answered and what it does to the state. -/
inductive Step (serve : σ → Event Q A → σ → Prop) :
    System program σ → System program σ → Prop
  | call (state : σ) (threads : List ((i : ι) × (program i).Phase)) (i : ι) :
      Step serve ⟨state, threads⟩ ⟨state, threads ++ [⟨i, .before (program i).before⟩]⟩
  | silent (state : σ) (left right : List ((i : ι) × (program i).Phase)) (i : ι)
      (phase phase' : (program i).Phase) :
      (program i).Step phase none phase' →
        Step serve ⟨state, left ++ ⟨i, phase⟩ :: right⟩ ⟨state, left ++ ⟨i, phase'⟩ :: right⟩
  | request (state state' : σ) (left right : List ((i : ι) × (program i).Phase)) (i : ι)
      (phase phase' : (program i).Phase) (event : Event Q A) :
      (program i).Step phase (some event) phase' → serve state event state' →
        Step serve ⟨state, left ++ ⟨i, phase⟩ :: right⟩
          ⟨state', left ++ ⟨i, phase'⟩ :: right⟩

def Reaches (serve : σ → Event Q A → σ → Prop) :
    System program σ → System program σ → Prop :=
  Relation.ReflTransGen (Step serve)

end System

/-- The steps of one call, when no other call runs. -/
inductive ForkJoin.Alone (call : ForkJoin Q A) (serve : σ → Event Q A → σ → Prop) :
    σ × call.Phase → σ × call.Phase → Prop
  | silent (state : σ) {phase phase' : call.Phase} :
      call.Step phase none phase' → Alone call serve (state, phase) (state, phase')
  | request {state state' : σ} {phase phase' : call.Phase} {event : Event Q A} :
      call.Step phase (some event) phase' → serve state event state' →
        Alone call serve (state, phase) (state', phase')

theorem System.Reaches.of_alone (program : ι → ForkJoin Q A) (i : ι)
    {serve : σ → Event Q A → σ → Prop} {x y : σ × (program i).Phase}
    (h : Relation.ReflTransGen ((program i).Alone serve) x y) :
    Reaches serve (⟨x.1, [⟨i, x.2⟩]⟩ : System program σ) ⟨y.1, [⟨i, y.2⟩]⟩ := by
  induction h with
  | refl => exact .refl
  | tail _ hstep ih =>
      cases hstep with
      | silent state hstep => exact ih.tail (.silent _ [] [] i _ _ hstep)
      | request hstep hserve => exact ih.tail (.request _ _ [] [] i _ _ _ hstep hserve)

/-! ## Shares -/

section Shares

variable {Update : W → Event Q A → W → Prop}

/-- What is shown of a goroutine: an invariant of its share, and how it ends. -/
structure GoroutineSpec (W τ : Type) where
  inv : W → Prop
  post : τ → W → Prop

namespace GoroutineSpec

def Ended (spec : GoroutineSpec W τ) (share : W) : Prop :=
  spec.inv share ∧ ∃ value, spec.post value share

variable (Update) in
/-- A goroutine, or the place of one that has returned, meets its specification. -/
def Meets (spec : GoroutineSpec W τ) : Option (Program Q A τ) → W → Prop
  | some p, share => p.Follows Update spec.inv spec.post share
  | none, share => spec.Ended share

theorem Meets.inv {spec : GoroutineSpec W τ} {slot : Option (Program Q A τ)} {share : W}
    (h : spec.Meets Update slot share) : spec.inv share := by
  cases slot with
  | none => exact h.1
  | some p => exact Program.Follows.inv h

end GoroutineSpec

/-- Goroutines with their specifications and their shares. -/
inductive Slots (Update : W → Event Q A → W → Prop) :
    List (Option (Program Q A τ)) → List (GoroutineSpec W τ) → List W → Prop
  | nil : Slots Update [] [] []
  | cons {slot : Option (Program Q A τ)} {spec : GoroutineSpec W τ} {share : W}
      {slots : List (Option (Program Q A τ))} {specs : List (GoroutineSpec W τ)}
      {shares : List W} : spec.Meets Update slot share → Slots Update slots specs shares →
        Slots Update (slot :: slots) (spec :: specs) (share :: shares)

namespace Slots

variable {slots : List (Option (Program Q A τ))} {specs : List (GoroutineSpec W τ)}
  {shares : List W}

theorem inv (h : Slots Update slots specs shares) :
    List.Forall₂ (fun spec share => spec.inv share) specs shares := by
  induction h with
  | nil => exact .nil
  | cons hslot _ ih => exact .cons hslot.inv ih

theorem ended (h : Slots Update slots specs shares) (hnone : ∀ slot ∈ slots, slot = none) :
    List.Forall₂ GoroutineSpec.Ended specs shares := by
  induction h with
  | nil => exact .nil
  | cons hslot _ ih =>
      obtain rfl := hnone _ List.mem_cons_self
      exact .cons hslot (ih fun slot hmem => hnone slot (List.mem_cons_of_mem _ hmem))

/-- The place of one goroutine, which can be given another program and share. -/
theorem split {left right : List (Option (Program Q A τ))} {slot : Option (Program Q A τ)}
    (h : Slots Update (left ++ slot :: right) specs shares) :
    ∃ (spec : GoroutineSpec W τ) (before : List W) (share : W) (after : List W),
      shares = before ++ share :: after ∧ spec.Meets Update slot share ∧ ∀ slot' share', spec.Meets Update slot' share' →
        Slots Update (left ++ slot' :: right) specs (before ++ share' :: after) := by
  induction left generalizing specs shares with
  | nil =>
      cases h with
      | @cons _ spec share _ _ shares hslot hrest =>
          exact ⟨spec, [], share, shares, rfl, hslot, fun _ _ h' => .cons h' hrest⟩
  | cons first left ih =>
      cases h with
      | @cons _ _ firstShare _ _ _ hfirst hrest =>
          obtain ⟨spec, before, share, after, rfl, hslot, hupdate⟩ := ih hrest
          exact ⟨spec, firstShare :: before, share, after, rfl, hslot,
            fun slot' share' h' => .cons hfirst (hupdate slot' share' h')⟩

end Slots

variable [AddCommMonoid W]

theorem sum_append_cons (before after : List W) (w : W) :
    (before ++ w :: after).sum = w + (before.sum + after.sum) := by
  rw [List.sum_append, List.sum_cons, add_left_comm]

variable (Update) in
/-- What is shown of a call when its goroutines start. -/
def Forks (inv : W → Prop) (post : α → W → Prop) (goroutines : List (Program Q A τ))
    (after : List (Nat × τ) → Program Q A α) (share : W) : Prop :=
  ∃ specs : List (GoroutineSpec W τ),
    List.Forall₂ (fun p spec => p.Follows Update spec.inv spec.post 0) goroutines specs ∧
      (∀ shares, List.Forall₂ (fun spec share => spec.inv share) specs shares →
        inv (share + shares.sum)) ∧
      ∀ completions shares, List.Forall₂ GoroutineSpec.Ended specs shares →
        (after completions).Follows Update inv post (share + shares.sum)

variable (Update) in
/-- The call follows its shares, with those of its goroutines added at the end. -/
def ForkJoin.Follows (call : ForkJoin Q A) (inv : W → Prop)
    (post : call.Result → W → Prop) : Prop :=
  call.before.Follows Update inv
    (fun locals => Forks Update inv post (call.goroutines locals) (call.after locals)) 0

theorem ForkJoin.sequential_follows {p : Program Q A α} {inv : W → Prop}
    {post : α → W → Prop} (h : p.Follows Update inv post 0) :
    (ForkJoin.sequential p).Follows Update inv post := by
  refine Program.Follows.mono h (fun _ hinv => hinv) fun value w hinv hpost => ?_
  refine ⟨[], .nil, ?_, ?_⟩
  · intro shares hshares
    cases hshares
    simpa using hinv
  · intro completions shares hshares
    cases hshares
    simpa using ⟨hinv, hpost⟩

variable (Update) in
/-- A call in some phase with the share of it and of its goroutines. -/
def ForkJoin.Tracks (call : ForkJoin Q A) (inv : W → Prop) (post : call.Result → W → Prop) :
    call.Phase → W → Prop
  | .before p, w => p.Follows Update inv
      (fun locals => Forks Update inv post (call.goroutines locals) (call.after locals)) w
  | .forked locals running _, w =>
      ∃ share shares specs, w = share + shares.sum ∧ Slots Update running specs shares ∧
        (∀ shares', List.Forall₂ (fun spec share => spec.inv share) specs shares' →
          inv (share + shares'.sum)) ∧
        ∀ completions shares', List.Forall₂ GoroutineSpec.Ended specs shares' →
          (call.after locals completions).Follows Update inv post (share + shares'.sum)
  | .after p, w => p.Follows Update inv post w
  | .returned value, w => inv w ∧ post value w

namespace ForkJoin

variable {call : ForkJoin Q A} {I : W → Prop} {post : call.Result → W → Prop}
  {phase phase' : call.Phase} {w : W}

theorem Tracks.inv (h : call.Tracks Update I post phase w) : I w := by
  cases phase with
  | before p => exact Program.Follows.inv h
  | forked locals running completions =>
      obtain ⟨share, shares, specs, rfl, hslots, hinv, -⟩ := h
      exact hinv shares hslots.inv
  | after p => exact Program.Follows.inv h
  | returned value => exact h.1

theorem slots_of_follows {goroutines : List (Program Q A τ)}
    {specs : List (GoroutineSpec W τ)}
    (h : List.Forall₂ (fun p spec => p.Follows Update spec.inv spec.post 0)
      goroutines specs) :
    Slots Update (goroutines.map some) specs (List.replicate goroutines.length 0) := by
  induction h with
  | nil => exact .nil
  | cons hp _ ih => exact .cons hp ih

theorem Tracks.silent (hstep : call.Step phase none phase')
    (h : call.Tracks Update I post phase w) : call.Tracks Update I post phase' w := by
  cases hstep with
  | fork locals =>
      obtain ⟨-, specs, hgoroutines, hinv, hafter⟩ := h
      exact ⟨w, _, specs, by simp, slots_of_follows hgoroutines, hinv, hafter⟩
  | finish locals left right value completions =>
      obtain ⟨share, shares, specs, rfl, hslots, hinv, hafter⟩ := h
      obtain ⟨spec, before, own, after, rfl, hslot, hupdate⟩ := hslots.split
      exact ⟨share, _, specs, rfl, hupdate none own ⟨hslot.1, value, hslot.2⟩, hinv, hafter⟩
  | join locals running completions hnone =>
      obtain ⟨share, shares, specs, rfl, hslots, -, hafter⟩ := h
      exact hafter completions shares (hslots.ended hnone)
  | «return» value => exact h

/-- A request changes a part of the share, and the rest of it is left alone. -/
theorem Tracks.request {event : Event Q A} (hstep : call.Step phase (some event) phase')
    (h : call.Tracks Update I post phase w) :
    ∃ own own' rest, w = own + rest ∧ Update own event own' ∧
      call.Tracks Update I post phase' (own' + rest) := by
  cases hstep with
  | before q next answer =>
      obtain ⟨w', hupdate, hnext⟩ := h.2 answer
      refine ⟨w, w', 0, (add_zero w).symm, hupdate, ?_⟩
      rwa [add_zero]
  | goroutine locals left right q next answer completions =>
      obtain ⟨share, shares, specs, rfl, hslots, hinv, hafter⟩ := h
      obtain ⟨spec, before, own, after, rfl, hslot, hreplace⟩ := hslots.split
      obtain ⟨own', hupdate, hnext⟩ := hslot.2 answer
      have hsum : ∀ x, share + (before ++ x :: after).sum =
          x + (share + (before.sum + after.sum)) := by
        intro x
        rw [sum_append_cons, add_left_comm]
      refine ⟨own, own', _, hsum own, hupdate, ?_⟩
      exact ⟨share, _, specs, (hsum own').symm, hreplace (some (next answer)) own' hnext,
        hinv, hafter⟩
  | after q next answer =>
      obtain ⟨w', hupdate, hnext⟩ := h.2 answer
      refine ⟨w, w', 0, (add_zero w).symm, hupdate, ?_⟩
      rwa [add_zero]

end ForkJoin

namespace System

variable {serve : σ → Event Q A → σ → Prop} {inv : ι → W → Prop}
  {post : (i : ι) → (program i).Result → W → Prop} {Holds : σ → W → Prop}
  {s s' : System program σ}

variable (Update inv post) in
def Tracks (thread : (i : ι) × (program i).Phase) (w : W) : Prop :=
  (program thread.1).Tracks Update (inv thread.1) (post thread.1) thread.2 w

variable (Update inv post Holds) in
/-- The state is what the shares of the calls add up to. -/
def Accounted (s : System program σ) : Prop :=
  ∃ shares, List.Forall₂ (Tracks Update inv post) s.threads shares ∧
    Holds s.state shares.sum

theorem Accounted.step (hcalls : ∀ i, (program i).Follows Update (inv i) (post i))
    (hframe : ∀ {t t' : σ} {event : Event Q A} {w w' rest : W}, serve t event t' →
      Update w event w' → Holds t (w + rest) → Holds t' (w' + rest))
    (h : s.Accounted Update inv post Holds) (hstep : Step serve s s') :
    s'.Accounted Update inv post Holds := by
  obtain ⟨shares, htracks, hholds⟩ := h
  cases hstep with
  | call state threads i =>
      refine ⟨shares ++ [0], List.rel_append htracks (.cons (hcalls i) .nil), ?_⟩
      simpa using hholds
  | silent state left right i phase phase' hstep =>
      obtain ⟨before, own, after, rfl, hleft, hown, hright⟩ := forall₂_append_cons htracks
      exact ⟨_, List.rel_append hleft (.cons (ForkJoin.Tracks.silent hstep hown) hright),
        hholds⟩
  | request state state' left right i phase phase' event hstep hserve =>
      obtain ⟨before, w, after, rfl, hleft, hown, hright⟩ := forall₂_append_cons htracks
      obtain ⟨own, own', rest, rfl, hupdate, hown'⟩ := ForkJoin.Tracks.request hstep hown
      refine ⟨_, List.rel_append hleft (.cons hown' hright), ?_⟩
      rw [sum_append_cons, add_assoc] at hholds ⊢
      exact hframe hserve hupdate hholds

theorem Accounted.reaches (hcalls : ∀ i, (program i).Follows Update (inv i) (post i))
    (hframe : ∀ {t t' : σ} {event : Event Q A} {w w' rest : W}, serve t event t' →
      Update w event w' → Holds t (w + rest) → Holds t' (w' + rest))
    (h : s.Accounted Update inv post Holds) (hreaches : Reaches serve s s') :
    s'.Accounted Update inv post Holds := by
  induction hreaches with
  | refl => exact h
  | tail _ hstep ih => exact ih.step hcalls hframe hstep

end System

end Shares

end PgMesh.Foundation
