import PgMesh.Foundation.Distinct
import PgMesh.Foundation.FanOut
import PgMesh.Foundation.Program
import Mathlib.Logic.Relation

/-!
# Goroutines that share a state

A call starts a list of programs and waits for all of them.  A step of the
pool either answers the request of one program or stores the outcome of one
that is done; `serve` says how the shared state changes with an answer.
-/

namespace PgMesh.Foundation

variable {σ Q τ : Type} {A : Q → Type}

/-- A program that has stored its outcome is `none`. -/
structure Pool (σ Q : Type) (A : Q → Type) (τ : Type) where
  state : σ
  running : List (Option (Program Q A τ))
  trace : List (Nat × Event Q A)
  completions : List (Nat × τ)

namespace Pool

def start (state : σ) (programs : List (Program Q A τ)) : Pool σ Q A τ :=
  ⟨state, programs.map some, [], []⟩

inductive Step (serve : σ → Event Q A → σ → Prop) :
    Pool σ Q A τ → Pool σ Q A τ → Prop
  | ask {pool : Pool σ Q A τ} {i : Nat} {request : Q}
      {next : A request → Program Q A τ} {answer : A request} {state : σ} :
      pool.running[i]? = some (some (.ask request next)) →
      serve pool.state ⟨request, answer⟩ state →
      Step serve pool
        ⟨state, pool.running.set i (some (next answer)),
          pool.trace ++ [(i, ⟨request, answer⟩)], pool.completions⟩
  | finish {pool : Pool σ Q A τ} {i : Nat} {value : τ} :
      pool.running[i]? = some (some (.done value)) →
      Step serve pool
        ⟨pool.state, pool.running.set i none, pool.trace,
          pool.completions ++ [(i, value)]⟩

/-- The steps of a pool, in any interleaving. -/
abbrev Reaches (serve : σ → Event Q A → σ → Prop) :
    Pool σ Q A τ → Pool σ Q A τ → Prop :=
  Relation.ReflTransGen (Step serve)

def Finished (pool : Pool σ Q A τ) : Prop := ∀ program ∈ pool.running, program = none

/-- The requests of one program, in order. -/
def eventsOf (pool : Pool σ Q A τ) (i : Nat) : List (Event Q A) :=
  pool.trace.filterMap fun entry => if entry.1 = i then some entry.2 else none

/-! ## Each program by itself -/

/-- Where the program in one slot has got to. -/
inductive Progress (pool : Pool σ Q A τ) (i : Nat) (p : Program Q A τ) : Prop
  | running (rest : Program Q A τ) : pool.running[i]? = some (some rest) →
      p.Runs (pool.eventsOf i) rest → i ∉ pool.completions.map Prod.fst →
      Progress pool i p
  | finished (value : τ) : pool.running[i]? = some none →
      p.Runs (pool.eventsOf i) (.done value) → (i, value) ∈ pool.completions →
      Progress pool i p

/-- A pool started with these programs. -/
structure Tracks (programs : List (Program Q A τ)) (pool : Pool σ Q A τ) : Prop where
  length : pool.running.length = programs.length
  progress : ∀ i p, programs[i]? = some p → pool.Progress i p
  traceRange : ∀ entry ∈ pool.trace, entry.1 < programs.length
  range : ∀ entry ∈ pool.completions, entry.1 < programs.length
  once : (pool.completions.map Prod.fst).Nodup

variable {serve : σ → Event Q A → σ → Prop} {programs : List (Program Q A τ)}
  {pool next : Pool σ Q A τ}

theorem eventsOf_of_trace {i j : Nat} {event : Event Q A}
    (h : next.trace = pool.trace ++ [(i, event)]) :
    next.eventsOf j = pool.eventsOf j ++ if i = j then [event] else [] := by
  unfold eventsOf
  rw [h, List.filterMap_append]
  by_cases hij : i = j
  · simp [hij]
  · simp [hij]

theorem start_tracks (state : σ) (programs : List (Program Q A τ)) :
    Tracks programs (start state programs) where
  length := by simp [start]
  progress := by
    intro i p hp
    exact .running p (by simp [start, hp]) (.refl p) (by simp [start])
  traceRange := by simp [start]
  range := by simp [start]
  once := by simp [start]

theorem Tracks.ask (h : Tracks programs pool) {i : Nat} {request : Q}
    {k : A request → Program Q A τ} {answer : A request} {state : σ}
    (hrunning : pool.running[i]? = some (some (.ask request k))) :
    Tracks programs (⟨state, pool.running.set i (some (k answer)),
      pool.trace ++ [(i, ⟨request, answer⟩)], pool.completions⟩ : Pool σ Q A τ) := by
  have hi : i < pool.running.length := (List.getElem?_eq_some_iff.mp hrunning).1
  refine ⟨by simp [h.length], ?_, ?_, h.range, h.once⟩
  · intro j p hp
    have hevents : eventsOf (⟨state, pool.running.set i (some (k answer)),
          pool.trace ++ [(i, ⟨request, answer⟩)], pool.completions⟩ : Pool σ Q A τ) j =
        pool.eventsOf j ++ if i = j then [⟨request, answer⟩] else [] :=
      eventsOf_of_trace rfl
    by_cases hij : i = j
    · subst hij
      rw [if_pos rfl] at hevents
      cases h.progress i p hp with
      | running rest hrest hruns hnew =>
          rw [hrunning] at hrest
          cases hrest
          refine .running (k answer) (by simp [hi]) ?_ hnew
          rw [hevents]
          exact hruns.append (.ask (.refl _))
      | finished value hrest _ _ =>
          rw [hrunning] at hrest
          cases hrest
    · rw [if_neg hij, List.append_nil] at hevents
      cases h.progress j p hp with
      | running rest hrest hruns hnew =>
          exact .running rest (by simpa [List.getElem?_set_ne hij] using hrest)
            (hevents ▸ hruns) hnew
      | finished value hrest hruns hmem =>
          exact .finished value (by simpa [List.getElem?_set_ne hij] using hrest)
            (hevents ▸ hruns) hmem
  · intro entry hentry
    rcases List.mem_append.mp hentry with hentry | hentry
    · exact h.traceRange entry hentry
    · rw [List.mem_singleton.mp hentry, ← h.length]
      exact hi

theorem Tracks.finish (h : Tracks programs pool) {i : Nat} {value : τ}
    (hrunning : pool.running[i]? = some (some (.done value))) :
    Tracks programs (⟨pool.state, pool.running.set i none, pool.trace,
      pool.completions ++ [(i, value)]⟩ : Pool σ Q A τ) := by
  have hi : i < pool.running.length := (List.getElem?_eq_some_iff.mp hrunning).1
  have hnew : i ∉ pool.completions.map Prod.fst := by
    have hlt : i < programs.length := h.length ▸ hi
    cases h.progress i _ (List.getElem?_eq_getElem hlt) with
    | running rest hrest hruns hnew => exact hnew
    | finished value' hrest _ _ =>
        rw [hrunning] at hrest
        cases hrest
  refine ⟨by simp [h.length], ?_, h.traceRange, ?_, ?_⟩
  · intro j p hp
    by_cases hij : i = j
    · subst hij
      cases h.progress i p hp with
      | running rest hrest hruns _ =>
          rw [hrunning] at hrest
          cases hrest
          exact .finished value (by simp [hi]) hruns (by simp)
      | finished value' hrest _ _ =>
          rw [hrunning] at hrest
          cases hrest
    · cases h.progress j p hp with
      | running rest hrest hruns hout =>
          refine .running rest (by simpa [List.getElem?_set_ne hij] using hrest) hruns ?_
          simpa [Ne.symm hij] using hout
      | finished value' hrest hruns hmem =>
          exact .finished value' (by simpa [List.getElem?_set_ne hij] using hrest)
            hruns (List.mem_append_left _ hmem)
  · intro entry hentry
    rcases List.mem_append.mp hentry with hentry | hentry
    · exact h.range entry hentry
    · rw [List.mem_singleton.mp hentry, ← h.length]
      exact hi
  · rw [List.map_append, List.nodup_append]
    refine ⟨h.once, by simp, ?_⟩
    intro j hj k hk hjk
    have hki : k = i := by simpa using hk
    rw [hjk, hki] at hj
    exact hnew hj

theorem Tracks.step (h : Tracks programs pool) (hstep : Step serve pool next) :
    Tracks programs next := by
  cases hstep with
  | ask hrunning _ => exact h.ask hrunning
  | finish hrunning => exact h.finish hrunning

theorem Tracks.reaches (h : Tracks programs pool) (hreach : Reaches serve pool next) :
    Tracks programs next := by
  induction hreach with
  | refl => exact h
  | tail _ hstep ih => exact ih.step hstep

/-! ## Requests -/

/-- Every request of a pool is one of the program in its slot. -/
theorem Tracks.runs (h : Tracks programs pool) {entry : Nat × Event Q A}
    (hentry : entry ∈ pool.trace) :
    ∃ p ∈ programs, ∃ rest, p.Runs (pool.eventsOf entry.1) rest ∧
      entry.2 ∈ pool.eventsOf entry.1 := by
  have hlt := h.traceRange entry hentry
  have hmem : entry.2 ∈ pool.eventsOf entry.1 :=
    List.mem_filterMap.mpr ⟨entry, hentry, by simp⟩
  cases h.progress _ _ (List.getElem?_eq_getElem hlt) with
  | running rest _ hruns _ => exact ⟨_, List.getElem_mem hlt, rest, hruns, hmem⟩
  | finished value _ hruns _ => exact ⟨_, List.getElem_mem hlt, _, hruns, hmem⟩

theorem Tracks.asks {P : Q → Prop} (h : Tracks programs pool)
    (hasks : ∀ p ∈ programs, p.Asks P) :
    ∀ entry ∈ pool.trace, P entry.2.request := by
  intro entry hentry
  obtain ⟨p, hp, rest, hruns, hmem⟩ := h.runs hentry
  exact (hasks p hp).of_runs hruns _ hmem

/-- Requests that do not touch the state leave it as it was. -/
theorem state_eq_of_reaches {P : Q → Prop} {state : σ}
    (hreach : Reaches serve (start state programs) pool)
    (hasks : ∀ p ∈ programs, p.Asks P)
    (hserve : ∀ {s s'} {event : Event Q A}, P event.request → serve s event s' → s' = s) :
    pool.state = state := by
  induction hreach with
  | refl => rfl
  | tail hreach hstep ih =>
      have hnext := ((start_tracks state programs).reaches hreach).step hstep
      cases hstep with
      | ask _ hanswer =>
          have hP := hnext.asks hasks _ (List.mem_append_right _ (List.mem_singleton_self _))
          rw [← ih]
          exact hserve hP hanswer
      | finish _ => exact ih

/-- The trace is made of the requests of the programs. -/
theorem Tracks.perm_trace (h : Tracks programs pool) :
    ((List.range programs.length).flatMap pool.eventsOf).Perm
      (pool.trace.map Prod.snd) := by
  have hclasses : ((List.range programs.length).flatMap fun i =>
      pool.trace.filter fun entry => entry.1 == i).Perm pool.trace := by
    apply flatMap_filter_perm
    · apply List.nodup_range.imp
      intro i j hij entry hentry
      have hi : entry.1 = i := by simpa using hentry
      simpa [hi] using hij
    · intro entry hentry
      exact ⟨entry.1, List.mem_range.mpr (h.traceRange entry hentry), by simp⟩
  have hmap := hclasses.map Prod.snd
  rw [List.map_flatMap] at hmap
  have hevents : pool.eventsOf = fun i =>
      (pool.trace.filter fun entry => entry.1 == i).map Prod.snd := by
    funext i
    unfold eventsOf
    apply filterMap_eq_map_filter
    intro entry _
    simp
  rw [hevents]
  exact hmap

/-! ## Outcomes -/

/-- Once all programs have returned, each has one outcome, in its own slot. -/
theorem Tracks.completes (h : Tracks programs pool) (hfinished : pool.Finished) :
    ∃ outcomes : List τ, outcomes.length = programs.length ∧
      Completes outcomes pool.completions ∧
      ∀ i (p : Program Q A τ) value, programs[i]? = some p →
        outcomes[i]? = some value → p.Runs (pool.eventsOf i) (.done value) := by
  have hvalue : ∀ i : Fin programs.length, ∃ value : τ,
      programs[i].Runs (pool.eventsOf i) (.done value) ∧
        ((i : Nat), value) ∈ pool.completions := by
    intro i
    cases h.progress i _ (List.getElem?_eq_getElem i.isLt) with
    | running rest hrest _ _ =>
        have hnone := hfinished _ (List.mem_of_getElem? hrest)
        cases hnone
    | finished value _ hruns hmem => exact ⟨value, hruns, hmem⟩
  choose outcome hruns hmem using hvalue
  refine ⟨List.ofFn outcome, by simp, ?_, ?_⟩
  · -- Both lists hold each slot once, with its outcome.
    have hkeys : ((List.ofFn outcome).zipIdx.map Prod.swap).map Prod.fst |>.Nodup := by
      rw [List.map_map]
      change ((List.ofFn outcome).zipIdx.map Prod.snd).Nodup
      rw [List.zipIdx_map_snd]
      exact List.nodup_range'
    rw [Completes, List.perm_ext_iff_of_nodup (List.Nodup.of_map _ h.once)
      (List.Nodup.of_map _ hkeys)]
    rintro ⟨i, value⟩
    have hswap : (i, value) ∈ (List.ofFn outcome).zipIdx.map Prod.swap ↔
        (List.ofFn outcome)[i]? = some value := by
      constructor
      · intro hmem
        obtain ⟨⟨v, j⟩, hpair, heq⟩ := List.mem_map.mp hmem
        cases heq
        exact List.mem_zipIdx_iff_getElem?.mp hpair
      · intro hget
        exact List.mem_map.mpr
          ⟨(value, i), List.mem_zipIdx_iff_getElem?.mpr hget, rfl⟩
    rw [hswap]
    constructor
    · intro hcompleted
      have hlt := h.range _ hcompleted
      have hsame := hmem ⟨i, hlt⟩
      have heq : value = outcome ⟨i, hlt⟩ := by
        have hpairs := List.inj_on_of_nodup_map h.once hcompleted hsame rfl
        exact (Prod.mk.inj hpairs).2
      rw [List.getElem?_ofFn, dif_pos hlt, heq]
    · intro hget
      rw [List.getElem?_ofFn] at hget
      split at hget
      · rename_i hlt
        cases hget
        exact hmem ⟨i, hlt⟩
      · cases hget
  · intro i p value hp hget
    rw [List.getElem?_ofFn] at hget
    split at hget
    · rename_i hlt
      cases hget
      rw [List.getElem?_eq_getElem hlt] at hp
      cases hp
      exact hruns ⟨i, hlt⟩
    · cases hget

/-! ## Every call can return -/

/-- One program can be driven to its end while the others wait. -/
theorem exists_finish (hserve : ∀ s request, ∃ answer s', serve s ⟨request, answer⟩ s')
    (pool : Pool σ Q A τ) (i : Nat) (p : Program Q A τ)
    (hp : pool.running[i]? = some (some p)) :
    ∃ next, Reaches serve pool next ∧ next.running = pool.running.set i none := by
  induction p generalizing pool with
  | done value => exact ⟨_, .single (.finish hp), rfl⟩
  | ask request k ih =>
      obtain ⟨answer, state, hanswer⟩ := hserve pool.state request
      have hi : i < pool.running.length := (List.getElem?_eq_some_iff.mp hp).1
      have hstep := Step.ask hp hanswer
      obtain ⟨next, hreach, hnext⟩ := ih answer
        ⟨state, pool.running.set i (some (k answer)),
          pool.trace ++ [(i, ⟨request, answer⟩)], pool.completions⟩ (by simp [hi])
      exact ⟨next, .head hstep hreach, by simp [hnext]⟩

/-- If every request can be answered, every call can return. -/
theorem exists_finished (hserve : ∀ s request, ∃ answer s', serve s ⟨request, answer⟩ s')
    (pool : Pool σ Q A τ) : ∃ next, Reaches serve pool next ∧ next.Finished := by
  -- The slots are emptied one after the other.
  have hsuffix : ∀ (rest before : List (Option (Program Q A τ))) (pool : Pool σ Q A τ),
      pool.running = before ++ rest → (∀ program ∈ before, program = none) →
        ∃ next, Reaches serve pool next ∧ next.Finished := by
    intro rest
    induction rest with
    | nil =>
        intro before pool hrunning hbefore
        refine ⟨pool, .refl, ?_⟩
        intro program hprogram
        rw [hrunning, List.append_nil] at hprogram
        exact hbefore program hprogram
    | cons slot rest ih =>
        intro before pool hrunning hbefore
        have hempty : ∀ program ∈ before ++ [none], program = none := by
          intro program hprogram
          rcases List.mem_append.mp hprogram with hprogram | hlast
          · exact hbefore program hprogram
          · exact List.mem_singleton.mp hlast
        cases slot with
        | none => exact ih (before ++ [none]) pool (by simp [hrunning]) hempty
        | some p =>
            obtain ⟨next, hreach, hnext⟩ := exists_finish hserve pool
              before.length p (by simp [hrunning])
            obtain ⟨last, hlast, hfinished⟩ := ih (before ++ [none]) next
              (by simp [hnext, hrunning]) hempty
            exact ⟨last, hreach.trans hlast, hfinished⟩
  exact hsuffix pool.running [] pool rfl (by simp)

end Pool

end PgMesh.Foundation
