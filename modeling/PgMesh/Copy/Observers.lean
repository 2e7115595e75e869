import PgMesh.Copy.Batches
import PgMesh.Copy.Boundaries
import PgMesh.Copy.Settling
import Mathlib.Algebra.BigOperators.Ring.List

/-!
# Observers of physical COPY operations

`runBatch` takes the time, runs the physical COPY, tells every observer what happened and
only then finishes the requests of the batch.  An observed batcher is a batcher with a
clock, the times at which its batches were opened, and the calls of its observers.
-/

namespace PgMesh.Copy

open PgMesh.Foundation

variable {α ε Ω : Type}

/-! ## The model -/

/-- What `runBatch` passes to the observers; durations are in nanoseconds. -/
structure TimedObservation (ε : Type) extends CopyBatchObservation ε where
  queueDuration : Int
  executionDuration : Int

/-- Where a goroutine of `runBatch` is before it finishes the requests of its batch. -/
inductive RunProgress (Ω ε : Type) where
  | ready
  | copying (startedAt : Int)
  | observing (observation : TimedObservation ε) (remaining : List (Option Ω))

def RunProgress.isObserved : RunProgress Ω ε → Bool
  | .observing _ [] => true
  | _ => false

structure ObserverCall (Ω ε : Type) where
  observer : Ω
  runner : Nat
  observation : TimedObservation ε

/-- An observer is a function or `nil`; `queuedAt` is kept by the name of the batch. -/
structure ObservedBatcher (α Ω ε : Type) where
  batcher : Batcher α ε
  observers : List (Option Ω)
  now : Int
  queuedAt : Nat → Int
  runs : List (RunProgress Ω ε)
  calls : List (ObserverCall Ω ε)

inductive ObservedAction (α ε : Type) where
  | tick (elapsed : Nat)
  | start (runner : Nat)
  | copyReturns (runner : Nat) (count : Int64) (err : Option (GoError ε))
  | observe (runner : Nat)
  | batcher (action : Action α ε)

namespace ObservedBatcher

/-- `NewCopyBatcher` with its observers. -/
def newCopyBatcher (config : CopyBatchConfig) (observers : List (Option Ω)) (now : Int) :
    Except (GoError ε) (ObservedBatcher α Ω ε) :=
  match Copy.newCopyBatcher config false with
  | .error err => .error err
  | .ok batcher => .ok ⟨batcher, observers, now, fun _ => now, [], []⟩

/-- The linger time of the batch is over. -/
def lingered (s : ObservedBatcher α Ω ε) (id : Nat) : Bool :=
  s.queuedAt id + s.batcher.config.linger ≤ s.now

/--
A timer does not fire early, and a goroutine of `runBatch` finishes the requests of its
batch after the loop over the observers.
-/
def permits (s : ObservedBatcher α Ω ε) : Action α ε → Bool
  | .timerFires timer => (s.batcher.timers[timer]?).all fun t => s.lingered t.batch
  | .copyReturns _ _ _ => false
  | action => action.runner?.all fun i => (s.runs[i]?).any RunProgress.isObserved

/-- New batches are opened now, and new goroutines have not started. -/
def follow (s : ObservedBatcher α Ω ε) (batcher : Batcher α ε) : ObservedBatcher α Ω ε :=
  { s with
    batcher := batcher
    queuedAt := fun id => if id < s.batcher.nextBatch then s.queuedAt id else s.now
    runs := s.runs ++ List.replicate (batcher.runners.length - s.runs.length) .ready }

/-- The physical COPY has returned, and `observation` is made. -/
def copyReturns (s : ObservedBatcher α Ω ε) (i : Nat) (count : Int64)
    (err : Option (GoError ε)) : Option (ObservedBatcher α Ω ε) :=
  match s.runs[i]?, s.batcher.copyReturns i count err with
  | some (.copying startedAt), some batcher =>
      match batcher.runners[i]? with
      | none => none
      | some runner =>
          runner.observation.map fun observation =>
            { s with
              batcher := batcher
              runs := s.runs.set i (.observing
                { observation with
                  queueDuration := startedAt - s.queuedAt runner.batch.id
                  executionDuration := s.now - startedAt } s.observers) }
  | _, _ => none

/-- The loop over the observers, which passes over `nil`. -/
def observe (s : ObservedBatcher α Ω ε) (i : Nat) : Option (ObservedBatcher α Ω ε) :=
  match s.runs[i]? with
  | some (.observing observation (observer :: remaining)) =>
      some { s with
        runs := s.runs.set i (.observing observation remaining)
        calls := s.calls ++ (observer.map fun observer => ⟨observer, i, observation⟩).toList }
  | _ => none

def step (s : ObservedBatcher α Ω ε) : ObservedAction α ε → Option (ObservedBatcher α Ω ε)
  | .tick elapsed => some { s with now := s.now + elapsed }
  | .start i =>
      match s.runs[i]? with
      | some .ready => some { s with runs := s.runs.set i (.copying s.now) }
      | _ => none
  | .copyReturns i count err => s.copyReturns i count err
  | .observe i => s.observe i
  | .batcher action =>
      if s.permits action then (s.batcher.step action).map s.follow else none

/-- What a goroutine of `runBatch` has told the observers. -/
def observed (s : ObservedBatcher α Ω ε) (i : Nat) : List (Ω × TimedObservation ε) :=
  (s.calls.filter (·.runner = i)).map fun call => (call.observer, call.observation)

/-! ## Runs -/

/-- The times of one goroutine, where the batch was opened at `queuedAt`. -/
structure Times (linger queuedAt startedAt : Int) (reason : Option FlushReason) : Prop where
  queued : queuedAt ≤ startedAt
  lingered : reason = some .linger → queuedAt + linger ≤ startedAt

theorem Times.elapsed {linger queuedAt startedAt : Int} {reason : Option FlushReason}
    (h : Times linger queuedAt startedAt reason) :
    Times linger 0 (startedAt - queuedAt) reason := by
  refine ⟨Int.sub_nonneg.mpr h.queued, ?_⟩
  intro hreason
  have hlingered := h.lingered hreason
  omega

/-- What the goroutine `i` of `runBatch` has done. -/
inductive RunInv (s : ObservedBatcher α Ω ε) (i : Nat) (runner : Runner α ε) :
    RunProgress Ω ε → Prop
  | ready : runner.phase = .copying → s.observed i = [] → RunInv s i runner .ready
  | copying {startedAt : Int} : runner.phase = .copying → s.observed i = [] →
      startedAt ≤ s.now →
      Times s.batcher.config.linger (s.queuedAt runner.batch.id) startedAt runner.batch.reason →
      RunInv s i runner (.copying startedAt)
  | observing {observation : TimedObservation ε} (visited : List (Option Ω))
      {remaining : List (Option Ω)} :
      some observation.toCopyBatchObservation = runner.observation →
      s.observers = visited ++ remaining →
      s.observed i = visited.filterMap (·.map (·, observation)) →
      (remaining ≠ [] → runner.phase = .finishing runner.batch.requests []) →
      0 ≤ observation.executionDuration →
      Times s.batcher.config.linger 0 observation.queueDuration observation.reason →
      RunInv s i runner (.observing observation remaining)

/-- A batch has a name that was given out, and has lingered if its reason says so. -/
def Placed (s : ObservedBatcher α Ω ε) (id : Nat) (reason : Option FlushReason) : Prop :=
  id < s.batcher.nextBatch ∧ (reason = some .linger → s.lingered id = true)

structure Inv (s : ObservedBatcher α Ω ε) : Prop where
  reachable : Reachable s.batcher
  length : s.runs.length = s.batcher.runners.length
  past : ∀ id < s.batcher.nextBatch, s.queuedAt id ≤ s.now
  timers : ∀ (i : Nat) (t : Timer), s.batcher.timers[i]? = some t →
    t.batch < s.batcher.nextBatch ∧ (t.status = .fired → s.lingered t.batch = true)
  batches : s.batcher.AllBatches s.Placed
  runs : ∀ (i : Nat) (run : RunProgress Ω ε) (runner : Runner α ε), s.runs[i]? = some run →
    s.batcher.runners[i]? = some runner → s.RunInv i runner run
  calls : ∀ call ∈ s.calls, call.runner < s.runs.length

variable {s s' : ObservedBatcher α Ω ε}

/-- What the goroutine has done stays true while it does not move. -/
theorem RunInv.mono {i : Nat} {runner : Runner α ε} {run : RunProgress Ω ε}
    (h : s.RunInv i runner run) (hobservers : s'.observers = s.observers)
    (hobserved : s'.observed i = s.observed i) (hnow : s.now ≤ s'.now)
    (hconfig : s'.batcher.config = s.batcher.config)
    (hqueued : s'.queuedAt runner.batch.id = s.queuedAt runner.batch.id) :
    s'.RunInv i runner run := by
  cases h with
  | ready hphase hnone => exact .ready hphase (hobserved.trans hnone)
  | copying hphase hnone hstarted htimes =>
      refine .copying hphase (hobserved.trans hnone) (hstarted.trans hnow) ?_
      rw [hconfig, hqueued]
      exact htimes
  | observing visited hobservation hsplit hcalls hphase hexecution htimes =>
      refine .observing visited hobservation (hobservers.trans hsplit) (hobserved.trans hcalls) hphase
        hexecution ?_
      rw [hconfig]
      exact htimes

theorem observed_append (s : ObservedBatcher α Ω ε) (observer : Option Ω) (i j : Nat)
    (observation : TimedObservation ε) :
    observed { s with
      calls := s.calls ++ (observer.map fun observer => ⟨observer, i, observation⟩).toList } j =
      s.observed j ++ if i = j then (observer.map (·, observation)).toList else [] := by
  cases observer with
  | none => simp [observed]
  | some observer =>
      by_cases hij : i = j
      · simp [observed, hij]
      · simp [observed, hij]

theorem Inv.tick (h : s.Inv) (elapsed : Nat) : Inv { s with now := s.now + elapsed } := by
  have hnow : s.now ≤ s.now + elapsed := by omega
  have hlingered : ∀ id, s.lingered id = true →
      lingered { s with now := s.now + elapsed } id = true := by
    intro id hid
    simp only [lingered, decide_eq_true_eq] at hid ⊢
    omega
  refine ⟨h.reachable, h.length, ?_, ?_, ?_, ?_, h.calls⟩
  · intro id hid
    exact (h.past id hid).trans hnow
  · intro i t ht
    exact ⟨(h.timers i t ht).1, fun hfired => hlingered _ ((h.timers i t ht).2 hfired)⟩
  · exact h.batches.mono fun id _ hplaced => ⟨hplaced.1, fun hr => hlingered id (hplaced.2 hr)⟩
  · intro i run runner hrun hrunner
    exact (h.runs i run runner hrun hrunner).mono rfl rfl hnow rfl rfl

theorem Inv.start (h : s.Inv) {i : Nat} (hready : s.runs[i]? = some .ready) :
    Inv { s with runs := s.runs.set i (.copying s.now) } := by
  refine ⟨h.reachable, by simpa using h.length, h.past, h.timers, h.batches, ?_, ?_⟩
  · intro j run runner hrun hrunner
    rcases getElem?_set_cases hrun with ⟨rfl, rfl⟩ | ⟨-, hrun⟩
    · obtain ⟨hplaced, hlingered⟩ := h.batches.runners runner (List.mem_of_getElem? hrunner)
      cases h.runs j .ready runner hready hrunner with
      | ready hphase hnone =>
          refine .copying hphase hnone (Int.le_refl _) ⟨h.past _ hplaced, ?_⟩
          intro hreason
          simpa [lingered] using hlingered hreason
    · exact (h.runs j run runner hrun hrunner).mono rfl rfl (Int.le_refl _) rfl rfl
  · simpa using h.calls

theorem Inv.observe (h : s.Inv) {i : Nat} (hstep : s.observe i = some s') : s'.Inv := by
  unfold ObservedBatcher.observe at hstep
  split at hstep
  · rename_i observation observer remaining hobserving
    cases hstep
    refine ⟨h.reachable, by simpa using h.length, h.past, h.timers, h.batches, ?_, ?_⟩
    · intro j run runner hrun hrunner
      have hobserved := observed_append s observer i j observation
      rcases getElem?_set_cases hrun with ⟨rfl, rfl⟩ | ⟨hne, hrun⟩
      · rw [if_pos rfl] at hobserved
        cases h.runs j _ runner hobserving hrunner with
        | observing visited hobservation hsplit hcalls hphase hexecution htimes =>
            refine .observing (visited ++ [observer]) hobservation ?_ ?_ ?_ hexecution
              htimes
            · simpa using hsplit
            · refine hobserved.trans ?_
              rw [hcalls]
              cases observer <;> simp
            · exact fun _ => hphase (by simp)
      · rw [if_neg (Ne.symm hne), List.append_nil] at hobserved
        exact (h.runs j run runner hrun hrunner).mono rfl hobserved (Int.le_refl _) rfl rfl
    · intro call hcall
      rw [List.length_set]
      rcases List.mem_append.mp hcall with hcall | hcall
      · exact h.calls call hcall
      · cases observer with
        | none => cases hcall
        | some observer =>
            rw [List.mem_singleton.mp hcall]
            exact (List.getElem?_eq_some_iff.mp hobserving).1
  · cases hstep

theorem Inv.copyReturns (h : s.Inv) {i : Nat} {count : Int64} {err : Option (GoError ε)}
    (hstep : s.copyReturns i count err = some s') : s'.Inv := by
  unfold ObservedBatcher.copyReturns at hstep
  split at hstep
  · rename_i startedAt batcher hcopying hreturns
    split at hstep
    · cases hstep
    · rename_i runner hrunner
      obtain ⟨observation, hobservation, rfl⟩ := Option.map_eq_some_iff.mp hstep
      have hbatcher : s.batcher.step (.copyReturns i count err) = some batcher := hreturns
      have hreachable := h.reachable.trans (.single hbatcher)
      unfold Batcher.copyReturns at hreturns
      split at hreturns
      · rename_i batch outcome hold
        cases hreturns
        have hi := (List.getElem?_eq_some_iff.mp hold).1
        rw [List.getElem?_set_self hi] at hrunner
        cases hrunner
        refine ⟨hreachable, by simpa using h.length, h.past, h.timers, ?_, ?_, by simpa using h.calls⟩
        · exact ⟨h.batches.active, h.batches.queue, h.batches.setRunner hold rfl⟩
        · intro j run runner hrun hrunner
          rcases getElem?_set_cases hrun with ⟨rfl, rfl⟩ | ⟨hne, hrun⟩
          · rw [List.getElem?_set_self hi] at hrunner
            cases hrunner
            cases h.runs j _ _ hcopying hold with
            | copying hphase hnone hstarted htimes =>
                refine .observing [] hobservation.symm rfl ?_ (fun _ => rfl) ?_ ?_
                · exact hnone
                · simp only
                  omega
                · cases hobservation
                  exact htimes.elapsed
          · rw [List.getElem?_set_ne (Ne.symm hne)] at hrunner
            exact (h.runs j run runner hrun hrunner).mono rfl rfl (Int.le_refl _) rfl rfl
      · cases hreturns
  · cases hstep

/-- A step of the batcher that the observed one permits keeps the names and the times. -/
theorem follow_lingered (s : ObservedBatcher α Ω ε) {batcher : Batcher α ε}
    (hconfig : batcher.config = s.batcher.config) {id : Nat} (hid : id < s.batcher.nextBatch) :
    (s.follow batcher).lingered id = s.lingered id := by
  simp only [lingered, follow, hconfig, if_pos hid]

theorem Inv.follow_timers (h : s.Inv) {action : Action α ε} {batcher : Batcher α ε}
    (hpermits : s.permits action = true) (hstep : s.batcher.step action = some batcher)
    (hconfig : batcher.config = s.batcher.config) :
    s.batcher.nextBatch ≤ batcher.nextBatch ∧
    ∀ (i : Nat) (t : Timer), batcher.timers[i]? = some t → t.batch < batcher.nextBatch ∧
      (t.status = .fired → (s.follow batcher).lingered t.batch = true) := by
  by_cases hfires : ∃ timer, action = .timerFires timer
  · obtain ⟨timer, rfl⟩ := hfires
    simp only [Batcher.step] at hstep
    unfold Batcher.timerFires at hstep
    split at hstep
    · rename_i id hfired
      cases hstep
      refine ⟨Nat.le_refl _, ?_⟩
      intro i t ht
      rcases getElem?_set_cases ht with ⟨rfl, rfl⟩ | ⟨-, ht⟩
      · obtain ⟨hlt, -⟩ := h.timers i _ hfired
        refine ⟨hlt, fun _ => ?_⟩
        rw [follow_lingered s hconfig hlt]
        simpa [permits, hfired] using hpermits
      · obtain ⟨hlt, hlingered⟩ := h.timers i t ht
        refine ⟨hlt, fun hstatus => ?_⟩
        rw [follow_lingered s hconfig hlt]
        exact hlingered hstatus
    · cases hstep
  · have hkept := Batcher.step_timers (fun timer heq => hfires ⟨timer, heq⟩) hstep
    refine ⟨hkept.nextBatch, ?_⟩
    intro i t' ht'
    rcases hkept.timers i t' ht' with ⟨t, ht, hbatch, hfired⟩ | ⟨hlt, hnot⟩
    · obtain ⟨hlt, hlingered⟩ := h.timers i t ht
      rw [hbatch, follow_lingered s hconfig hlt]
      exact ⟨Nat.lt_of_lt_of_le hlt hkept.nextBatch, fun hstatus => hlingered (hfired hstatus)⟩
    · exact ⟨hlt, fun hfired => absurd hfired hnot⟩

theorem Inv.follow_batches (h : s.Inv) {action : Action α ε} {batcher : Batcher α ε}
    (hstep : s.batcher.step action = some batcher)
    (hconfig : batcher.config = s.batcher.config)
    (hnext : s.batcher.nextBatch ≤ batcher.nextBatch) :
    batcher.AllBatches (s.follow batcher).Placed := by
  have hlift : s.batcher.AllBatches (s.follow batcher).Placed := by
    refine h.batches.mono ?_
    rintro id reason ⟨hid, hreason⟩
    refine ⟨Nat.lt_of_lt_of_le hid hnext, fun heq => ?_⟩
    rw [follow_lingered s hconfig hid]
    exact hreason heq
  refine hlift.step h.reachable.activeInv ?_ ?_ ?_ hstep
  · exact fun hfresh => ⟨hfresh, nofun⟩
  · intro id reason hne hid
    exact ⟨hid.1, fun heq => absurd (Option.some.inj heq) hne⟩
  · intro timer id hfired hid
    obtain ⟨hlt, hlingered⟩ := h.timers timer _ hfired
    refine ⟨hid.1, fun _ => ?_⟩
    rw [follow_lingered s hconfig hlt]
    exact hlingered rfl

/-- A goroutine that finishes its requests has told every observer. -/
theorem RunInv.advance {i : Nat} {runner runner' : Runner α ε} {run : RunProgress Ω ε}
    (h : s.RunInv i runner run) (hobserved : run.isObserved = true)
    (hbatch : runner'.batch = runner.batch) (houtcome : runner'.outcome = runner.outcome) :
    s.RunInv i runner' run := by
  cases h with
  | ready => cases hobserved
  | copying => cases hobserved
  | @observing observation visited remaining hobservation hsplit hcalls hphase hexecution htimes =>
      cases remaining with
      | cons => cases hobserved
      | nil =>
          refine .observing visited ?_ hsplit hcalls (fun hne => absurd rfl hne) hexecution htimes
          simpa [Runner.observation, Runner.err, hbatch, houtcome] using hobservation

theorem isObserved_of_permits {action : Action α ε} {i : Nat} {run : RunProgress Ω ε}
    (hpermits : s.permits action = true) (htarget : action.runner? = some i)
    (hrun : s.runs[i]? = some run) : run.isObserved = true := by
  cases action <;> simp_all [permits, Action.runner?]

theorem Inv.observed_eq_nil (h : s.Inv) {i : Nat} (hi : s.runs.length ≤ i) :
    s.observed i = [] := by
  simp only [observed, List.map_eq_nil_iff, List.filter_eq_nil_iff, decide_eq_true_eq]
  intro call hcall heq
  exact absurd (h.calls call hcall) (by omega)

theorem Inv.follow (h : s.Inv) {action : Action α ε} {batcher : Batcher α ε}
    (hpermits : s.permits action = true) (hstep : s.batcher.step action = some batcher) :
    (s.follow batcher).Inv := by
  have hconfig := Batcher.config_of_moves (Batcher.step_moves h.reachable.activeInv hstep)
  obtain ⟨hnext, htimers⟩ := h.follow_timers hpermits hstep hconfig
  have hquiet : ∀ runner count err, action ≠ .copyReturns runner count err := by
    rintro runner count err rfl
    cases hpermits
  have hrunners := Batcher.step_runners hquiet hstep
  have hlength := hrunners.length_le
  rw [← h.length] at hlength
  refine ⟨h.reachable.trans (.single hstep), ?_, ?_, htimers,
    h.follow_batches hstep hconfig hnext, ?_, ?_⟩
  · simp only [ObservedBatcher.follow, List.length_append, List.length_replicate]
    omega
  · intro id hid
    simp only [ObservedBatcher.follow]
    split
    · exact h.past id ‹_›
    · exact Int.le_refl _
  · intro j run next hrun hnext
    have hkept : ∀ runner, s.batcher.runners[j]? = some runner → s.runs[j]? = some run →
        (s.follow batcher).RunInv j runner run := by
      intro runner hrunner hrun
      obtain ⟨hid, -⟩ := h.batches.runners runner (List.mem_of_getElem? hrunner)
      refine (h.runs j run runner hrun hrunner).mono rfl rfl (Int.le_refl _) hconfig ?_
      simp only [ObservedBatcher.follow, if_pos hid]
    rcases hrunners.getElem?_cases hnext with ⟨runner, hrunner, hmoved⟩ | ⟨hge, hphase⟩
    · have hlt := (List.getElem?_eq_some_iff.mp hrunner).1
      rw [← h.length] at hlt
      replace hrun : s.runs[j]? = some run := by
        rwa [← List.getElem?_append_left hlt]
      rcases hmoved with rfl | ⟨htarget, hbatch, houtcome⟩
      · exact hkept next hrunner hrun
      · refine (hkept runner hrunner hrun).advance ?_ hbatch houtcome
        exact isObserved_of_permits hpermits htarget hrun
    · rw [← h.length] at hge
      simp only [ObservedBatcher.follow, List.getElem?_append_right hge] at hrun
      rw [List.eq_of_mem_replicate (List.mem_of_getElem? hrun)]
      exact .ready hphase (h.observed_eq_nil hge)
  · intro call hcall
    exact Nat.lt_of_lt_of_le (h.calls call hcall) (by simp [ObservedBatcher.follow])

theorem Inv.step (h : s.Inv) {action : ObservedAction α ε} (hstep : s.step action = some s') :
    s'.Inv := by
  cases action with
  | tick elapsed =>
      cases hstep
      exact h.tick elapsed
  | start i =>
      simp only [ObservedBatcher.step] at hstep
      split at hstep
      · rename_i hready
        cases hstep
        exact h.start hready
      · cases hstep
  | copyReturns i count err => exact h.copyReturns hstep
  | observe i => exact h.observe hstep
  | batcher action =>
      simp only [ObservedBatcher.step] at hstep
      split at hstep
      · rename_i hpermits
        obtain ⟨batcher, hbatcher, rfl⟩ := Option.map_eq_some_iff.mp hstep
        exact h.follow hpermits hbatcher
      · cases hstep

theorem newCopyBatcher_eq_ok {config : CopyBatchConfig} {observers : List (Option Ω)} {now : Int}
    (hnew : ObservedBatcher.newCopyBatcher config observers now = .ok s) :
    ∃ batcher, Copy.newCopyBatcher config false = .ok batcher ∧
      s = ⟨batcher, observers, now, fun _ => now, [], []⟩ := by
  unfold ObservedBatcher.newCopyBatcher at hnew
  split at hnew
  · cases hnew
  · rename_i batcher hbatcher
    cases hnew
    exact ⟨batcher, hbatcher, rfl⟩

theorem newCopyBatcher_inv {config : CopyBatchConfig} {observers : List (Option Ω)} {now : Int}
    (hnew : ObservedBatcher.newCopyBatcher config observers now = .ok s) : s.Inv := by
  obtain ⟨batcher, hbatcher, rfl⟩ := newCopyBatcher_eq_ok hnew
  have hreachable : Reachable batcher := ⟨config, batcher, hbatcher, .refl batcher⟩
  obtain ⟨accepted, rfl⟩ := Copy.newCopyBatcher_eq_ok hbatcher
  refine ⟨hreachable, rfl, ?_, ?_, ⟨?_, ?_, ?_⟩, ?_, ?_⟩
  · exact fun _ _ => Int.le_refl _
  · intro i t ht
    simp [Batcher.initial] at ht
  · intro batch hbatch
    simp [Batcher.initial] at hbatch
  · intro batch hbatch
    simp [Batcher.initial] at hbatch
  · intro runner hrunner
    simp [Batcher.initial] at hrunner
  · intro i run runner hrun
    simp at hrun
  · intro call hcall
    simp at hcall

/-- A step keeps the observers, and is a step of the batcher or none. -/
theorem step_batcher {action : ObservedAction α ε} (hstep : s.step action = some s') :
    s'.observers = s.observers ∧ Reaches Batcher.step s.batcher s'.batcher := by
  cases action with
  | tick elapsed =>
      cases hstep
      exact ⟨rfl, .refl _⟩
  | start i =>
      simp only [ObservedBatcher.step] at hstep
      split at hstep <;> cases hstep
      exact ⟨rfl, .refl _⟩
  | copyReturns i count err =>
      simp only [ObservedBatcher.step, ObservedBatcher.copyReturns] at hstep
      split at hstep
      · rename_i startedAt batcher _ hreturns
        split at hstep
        · cases hstep
        · obtain ⟨observation, -, rfl⟩ := Option.map_eq_some_iff.mp hstep
          have hbatcher : s.batcher.step (.copyReturns i count err) = some batcher := hreturns
          exact ⟨rfl, .single hbatcher⟩
      · cases hstep
  | observe i =>
      simp only [ObservedBatcher.step, ObservedBatcher.observe] at hstep
      split at hstep <;> cases hstep
      exact ⟨rfl, .refl _⟩
  | batcher action =>
      simp only [ObservedBatcher.step] at hstep
      split at hstep
      · obtain ⟨batcher, hbatcher, rfl⟩ := Option.map_eq_some_iff.mp hstep
        exact ⟨rfl, .single hbatcher⟩
      · cases hstep

theorem batcher_of_run {start : ObservedBatcher α Ω ε}
    (hrun : Reaches ObservedBatcher.step start s) :
    s.observers = start.observers ∧ Reaches Batcher.step start.batcher s.batcher :=
  hrun.invariant
    (P := fun t => t.observers = start.observers ∧ Reaches Batcher.step start.batcher t.batcher)
    ⟨rfl, .refl _⟩ fun h hstep =>
      ⟨(step_batcher hstep).1.trans h.1, h.2.trans (step_batcher hstep).2⟩

theorem observers_of_run {config : CopyBatchConfig} {observers : List (Option Ω)} {now : Int}
    {start : ObservedBatcher α Ω ε}
    (hnew : ObservedBatcher.newCopyBatcher config observers now = .ok start)
    (hrun : Reaches ObservedBatcher.step start s) : s.observers = observers := by
  obtain ⟨batcher, -, rfl⟩ := newCopyBatcher_eq_ok hnew
  exact (batcher_of_run hrun).1

theorem inv_of_run {config : CopyBatchConfig} {observers : List (Option Ω)} {now : Int}
    {start : ObservedBatcher α Ω ε}
    (hnew : ObservedBatcher.newCopyBatcher config observers now = .ok start)
    (hrun : Reaches ObservedBatcher.step start s) : s.Inv :=
  hrun.invariant (newCopyBatcher_inv hnew) fun h hstep => h.step hstep

/-! ## What the observers are told -/

theorem RunInv.isObserved_of_finished {i : Nat} {runner : Runner α ε} {run : RunProgress Ω ε}
    (h : s.RunInv i runner run) {request : Nat} (hmem : request ∈ runner.batch.requests)
    (hfinished : request ∉ runner.unfinished) : run.isObserved = true := by
  cases h with
  | ready hphase => exact absurd (by simpa [Runner.unfinished, hphase] using hmem) hfinished
  | copying hphase => exact absurd (by simpa [Runner.unfinished, hphase] using hmem) hfinished
  | @observing _ _ remaining _ _ _ hphase =>
      cases remaining with
      | nil => rfl
      | cons =>
          have hphase := hphase (by simp)
          exact absurd (by simpa [Runner.unfinished, hphase] using hmem) hfinished

/-- What a goroutine has told when it has told every observer. -/
theorem RunInv.told {i : Nat} {runner : Runner α ε} {run : RunProgress Ω ε}
    (h : s.RunInv i runner run) (hobserved : run.isObserved = true) :
    ∃ observation : TimedObservation ε,
      runner.observation = some observation.toCopyBatchObservation ∧
        s.observed i = s.observers.filterMap (·.map (·, observation)) := by
  cases h with
  | ready => cases hobserved
  | copying => cases hobserved
  | @observing observation visited remaining hobservation hsplit hcalls =>
      cases remaining with
      | cons => cases hobserved
      | nil => exact ⟨observation, hobservation.symm, by rw [hcalls, hsplit, List.append_nil]⟩

theorem Inv.run_of_runner (h : s.Inv) {i : Nat} {runner : Runner α ε}
    (hrunner : s.batcher.runners[i]? = some runner) :
    ∃ run, s.runs[i]? = some run ∧ s.RunInv i runner run := by
  have hlt := (List.getElem?_eq_some_iff.mp hrunner).1
  rw [← h.length] at hlt
  exact ⟨_, List.getElem?_eq_getElem hlt, h.runs i _ runner (List.getElem?_eq_getElem hlt) hrunner⟩

end ObservedBatcher

/-- Nothing of a resolved request is left. -/
theorem Reachable.finished_of_outcome {s : Batcher α ε} (h : Reachable s) {request : Nat}
    (houtcome : s.outcome request ≠ none) :
    (∀ batch ∈ s.waiting, request ∉ batch.requests) ∧
      (∀ runner ∈ s.runners, request ∉ runner.unfinished) ∧ ¬s.Unplaced request := by
  cases hq : s.requests[request]? with
  | none => simp [Batcher.outcome, hq] at houtcome
  | some q =>
      rw [Batcher.outcome_of_found hq] at houtcome
      obtain ⟨-, hparts, hplaced⟩ :=
        (h.inv.ledger.ledger request q hq).stage.settled_of_outcome houtcome
      obtain ⟨hwaiting, hfinished⟩ := Batcher.not_mem_of_openParts hparts
      exact ⟨hwaiting, hfinished, hplaced⟩

theorem CopyBatch.length_tagged (batch : CopyBatch α) :
    batch.tagged.length = batch.rows.length := by
  simp [CopyBatch.tagged, CopyBatch.rows, CopyPart.tagged, List.length_flatMap]

namespace Reachable

variable {s : Batcher α ε}

/-- Batches that wait have no row when every future has resolved. -/
theorem tagged_of_waiting (h : Reachable s)
    (hresolved : ∀ request < s.accepted.length, s.outcome request ≠ none)
    {batch : CopyBatch α} (hbatch : batch ∈ s.waiting) : batch.tagged = [] := by
  have hnone : batch.parts = [] := by
    by_contra hne
    obtain ⟨part, parts, hparts⟩ := List.exists_cons_of_ne_nil hne
    have hmem : part.request ∈ batch.requests := by simp [CopyBatch.requests, hparts]
    have hlt := h.inv.order.bounded batch hbatch _ hmem
    rw [← h.rowsInv.length] at hlt
    exact (h.finished_of_outcome (hresolved _ hlt)).1 batch hbatch hmem
  rw [CopyBatch.tagged, hnone, List.flatMap_nil]

theorem unplaced_of_resolved (h : Reachable s)
    (hresolved : ∀ request < s.accepted.length, s.outcome request ≠ none) (coalesce : Bool) :
    taggedUnplaced coalesce s.lock = [] := by
  cases hlock : s.lock with
  | none => rfl
  | some holder =>
      have hlt : holder.request < s.accepted.length := by
        have hnewest := h.inv.order.newest holder hlock
        have hlength := h.rowsInv.length
        omega
      have hnil : holder.rows = [] := by
        by_contra hne
        exact (h.finished_of_outcome (hresolved _ hlt)).2.2 ⟨holder, hlock, rfl, hne⟩
      simp [taggedUnplaced, hnil]

/-- When every future has resolved, the accepted rows are those of the dispatched batches. -/
theorem dispatched_of_resolved (h : Reachable s)
    (hresolved : ∀ request < s.accepted.length, s.outcome request ≠ none) :
    (s.dispatched.flatMap CopyBatch.tagged).Perm
      (s.accepted.zipIdx.flatMap fun (submission, request) =>
        submission.rows.map (request, ·)) := by
  have hnone : ∀ coalesce (batches : List (CopyBatch α)), (∀ batch ∈ batches, batch ∈ s.waiting) →
      taggedRows coalesce batches = [] := by
    intro coalesce batches hbatches
    exact List.flatMap_eq_nil_iff.mpr fun batch hbatch =>
      h.tagged_of_waiting hresolved (hbatches batch (List.mem_filter.mp hbatch).1)
  have hline : ∀ coalesce,
      taggedRows coalesce s.dispatched = taggedAccepted coalesce s.accepted := by
    intro coalesce
    have hall := h.rowsInv.rows coalesce
    rwa [h.unplaced_of_resolved hresolved,
      hnone coalesce s.queue fun _ => List.mem_append_left _,
      hnone coalesce s.active.toList fun _ => List.mem_append_right _, List.append_nil,
      List.append_nil, List.append_nil] at hall
  refine (taggedRows_perm s.dispatched).symm.trans ?_
  rw [hline, hline]
  exact taggedAccepted_perm s.accepted

theorem rows_dispatched (h : Reachable s)
    (hresolved : ∀ request < s.accepted.length, s.outcome request ≠ none) :
    (s.dispatched.map (·.rows.length)).sum = (s.accepted.map (·.rows.length)).sum := by
  have hlength := (h.dispatched_of_resolved hresolved).length_eq
  simp only [List.length_flatMap, List.length_map, CopyBatch.length_tagged] at hlength
  rw [hlength]
  conv_rhs => rw [← List.zipIdx_map_fst 0 s.accepted, List.map_map]
  rfl

end Reachable

namespace ObservedBatcher

variable {s : ObservedBatcher α Ω ε}

theorem Inv.told_of_outcome (h : s.Inv) {request : Nat}
    (houtcome : s.batcher.outcome request ≠ none) {i : Nat} {runner : Runner α ε}
    (hrunner : s.batcher.runners[i]? = some runner) (hmem : request ∈ runner.batch.requests) :
    ∃ observation : TimedObservation ε,
      runner.observation = some observation.toCopyBatchObservation ∧
        s.observed i = s.observers.filterMap (·.map (·, observation)) := by
  obtain ⟨run, -, hrun⟩ := h.run_of_runner hrunner
  obtain ⟨-, hfinished, -⟩ := h.reachable.finished_of_outcome houtcome
  have hunfinished := hfinished runner (List.mem_of_getElem? hrunner)
  exact hrun.told (hrun.isObserved_of_finished hmem hunfinished)

theorem Inv.exists_request (h : s.Inv) {runner : Runner α ε} (hmem : runner ∈ s.batcher.runners) :
    ∃ request ∈ runner.batch.requests, request < s.batcher.accepted.length := by
  have hrows := (h.reachable.sizeInv.dispatched _ (List.mem_map_of_mem hmem)).rows
  obtain ⟨request, hrequest⟩ : ∃ request, request ∈ runner.batch.requests := by
    refine List.exists_mem_of_ne_nil _ fun hnil => hrows ?_
    rw [CopyBatch.rows, List.map_eq_nil_iff.mp hnil, List.flatMap_nil]
  refine ⟨request, hrequest, ?_⟩
  rw [h.reachable.rowsInv.length]
  exact h.reachable.inv.order.runner_bounded runner hmem request hrequest

theorem Inv.told_of_resolved (h : s.Inv)
    (hresolved : ∀ request < s.batcher.accepted.length, s.batcher.outcome request ≠ none)
    {i : Nat} {runner : Runner α ε} (hrunner : s.batcher.runners[i]? = some runner) :
    ∃ observation : TimedObservation ε,
      runner.observation = some observation.toCopyBatchObservation ∧
        s.observed i = s.observers.filterMap (·.map (·, observation)) := by
  obtain ⟨request, hrequest, hlt⟩ := h.exists_request (List.mem_of_getElem? hrunner)
  exact h.told_of_outcome (hresolved request hlt) hrunner hrequest

/-- What an observer adds up over its calls. -/
def seen [DecidableEq Ω] (s : ObservedBatcher α Ω ε) (observer : Ω)
    (f : TimedObservation ε → Nat) : Nat :=
  ((s.calls.filter (·.observer = observer)).map (f ·.observation)).sum

theorem sum_told [DecidableEq Ω] (observers : List (Option Ω)) (observer : Ω)
    (observation : TimedObservation ε) (f : TimedObservation ε → Nat) :
    (((observers.filterMap (·.map (·, observation))).filter (·.1 = observer)).map (f ·.2)).sum =
      observers.count (some observer) * f observation := by
  induction observers with
  | nil => simp
  | cons first observers ih =>
      cases first with
      | none => simpa using ih
      | some first =>
          by_cases hfirst : first = observer
          · simp only [List.filterMap_cons, Option.map_some, List.filter_cons, hfirst,
              decide_true, if_true, List.map_cons, List.sum_cons, List.count_cons_self, ih]
            rw [Nat.succ_mul, Nat.add_comm]
          · simpa [hfirst] using ih

/-- An observer adds up over the physical COPY operations, once for each of its places. -/
theorem Inv.seen_of_resolved [DecidableEq Ω] (h : s.Inv)
    (hresolved : ∀ request < s.batcher.accepted.length, s.batcher.outcome request ≠ none)
    (observer : Ω) {f : TimedObservation ε → Nat} {g : Runner α ε → Nat}
    (hf : ∀ runner (observation : TimedObservation ε),
      runner.observation = some observation.toCopyBatchObservation → f observation = g runner) :
    s.seen observer f = s.observers.count (some observer) * (s.batcher.runners.map g).sum := by
  have hkeys : ∀ call ∈ s.calls.filter (·.observer = observer),
      call.runner < s.batcher.runners.length := by
    intro call hcall
    rw [← h.length]
    exact h.calls call (List.mem_filter.mp hcall).1
  have hrunner : ∀ i (hi : i < s.batcher.runners.length),
      (((s.calls.filter (·.observer = observer)).filter (·.runner = i)).map
        (f ·.observation)).sum =
        s.observers.count (some observer) * g s.batcher.runners[i] := by
    intro i hi
    obtain ⟨observation, hobservation, htold⟩ :=
      h.told_of_resolved hresolved (List.getElem?_eq_getElem hi)
    rw [← hf _ observation hobservation, ← sum_told, ← htold, List.filter_comm]
    simp [observed, List.filter_map, Function.comp_def]
  rw [seen, ← sum_map_filter_key hkeys, ← List.sum_map_mul_left]
  congr 1
  refine List.ext_getElem (by simp) fun i hi hi' => ?_
  simpa using hrunner i (by simpa using hi)

theorem Inv.call_observation (h : s.Inv) {call : ObserverCall Ω ε} (hcall : call ∈ s.calls) :
    some call.observer ∈ s.observers ∧ ∃ runner, s.batcher.runners[call.runner]? = some runner ∧
      runner.observation = some call.observation.toCopyBatchObservation ∧
      0 ≤ call.observation.executionDuration ∧
      Times s.batcher.config.linger 0 call.observation.queueDuration call.observation.reason := by
  have hlt := h.calls call hcall
  rw [h.length] at hlt
  have hrunner := List.getElem?_eq_getElem hlt
  obtain ⟨run, -, hrun⟩ := h.run_of_runner hrunner
  have hobserved : (call.observer, call.observation) ∈ s.observed call.runner :=
    List.mem_map.mpr ⟨call, List.mem_filter.mpr ⟨hcall, by simp⟩, rfl⟩
  cases hrun with
  | ready _ hnone => rw [hnone] at hobserved; cases hobserved
  | copying _ hnone => rw [hnone] at hobserved; cases hobserved
  | observing _ hobservation hsplit hcalls _ hexecution htimes =>
      rw [hcalls] at hobserved
      obtain ⟨observer, hvisited, hsome⟩ := List.mem_filterMap.mp hobserved
      obtain ⟨_, rfl, heq⟩ := Option.map_eq_some_iff.mp hsome
      obtain ⟨rfl, rfl⟩ := Prod.mk.inj heq
      rw [hsplit]
      exact ⟨List.mem_append_left _ hvisited, _, hrunner, hobservation.symm, hexecution, htimes⟩

theorem Inv.seen_rows [DecidableEq Ω] (h : s.Inv)
    (hresolved : ∀ request < s.batcher.accepted.length, s.batcher.outcome request ≠ none)
    (observer : Ω) :
    s.seen observer (·.rowCount) =
      s.observers.count (some observer) * (s.batcher.accepted.map (·.rows.length)).sum ∧
    s.seen observer (fun _ => 1) =
      s.observers.count (some observer) * s.batcher.runners.length := by
  refine ⟨?_, ?_⟩
  · rw [← h.reachable.rows_dispatched hresolved, Batcher.dispatched, List.map_map]
    refine h.seen_of_resolved hresolved observer fun runner observation hobservation => ?_
    obtain ⟨_, -, heq⟩ := Option.map_eq_some_iff.mp hobservation
    rw [← heq]
    rfl
  · rw [h.seen_of_resolved (g := fun _ => 1) hresolved observer fun _ _ _ => rfl]
    simp

/-! ## A run

Two rows wait for their timer.  Two observers are told of their physical COPY, which takes
five nanoseconds, and then the future resolves.
-/

def lingerConfig : CopyBatchConfig := ⟨3, 1000000, 1⟩

def lingerStart : ObservedBatcher Nat Bool Unit :=
  ⟨.initial (lingerConfig.accepted (ε := Unit) rfl), [some true, none, some false], 0,
    fun _ => 0, [], []⟩

def lingerTrace : List (ObservedAction Nat Unit) :=
  [.batcher (.submit [1, 2] true none none), .batcher .place, .batcher .unlock, .tick 1000000,
   .batcher (.timerFires 0), .batcher (.flushExpiredBatch 0), .start 0, .tick 5,
   .copyReturns 0 2 none, .observe 0, .observe 0, .observe 0, .batcher (.finishPart 0),
   .batcher (.resolve 0), .batcher (.complete 0)]

def lingerState : ObservedBatcher Nat Bool Unit :=
  (runFrom ObservedBatcher.step lingerStart lingerTrace).getD lingerStart

theorem lingerState_reached : Reaches ObservedBatcher.step lingerStart lingerState :=
  ⟨lingerTrace, rfl⟩

/-! ## Results -/

/--
A goroutine of `runBatch` tells the observers that are not `nil` in their order, each once,
and all the same.  By the time a future resolves, they have all been told of every physical
COPY with a row of the submission, and none of its rows is anywhere else.
-/
theorem observers_told_before_futures_resolve {config : CopyBatchConfig}
    {observers : List (Option Ω)} {now : Int} {start : ObservedBatcher α Ω ε}
    (hnew : ObservedBatcher.newCopyBatcher config observers now = .ok start)
    (hrun : Reaches ObservedBatcher.step start s) :
    (∀ (i : Nat) (runner : Runner α ε), s.batcher.runners[i]? = some runner →
      s.observed i = [] ∨ ∃ observation : TimedObservation ε,
        runner.observation = some observation.toCopyBatchObservation ∧
          s.observed i <+: observers.filterMap (·.map (·, observation))) ∧
    ∀ request, s.batcher.outcome request ≠ none →
      (∀ (i : Nat) (runner : Runner α ε), s.batcher.runners[i]? = some runner →
        request ∈ runner.batch.requests → ∃ observation : TimedObservation ε,
          runner.observation = some observation.toCopyBatchObservation ∧
            s.observed i = observers.filterMap (·.map (·, observation))) ∧
      (∀ batch ∈ s.batcher.waiting, request ∉ batch.requests) ∧
        ¬s.batcher.Unplaced request := by
  have h := inv_of_run hnew hrun
  have hobservers := observers_of_run hnew hrun
  refine ⟨?_, ?_⟩
  · intro i runner hrunner
    obtain ⟨run, -, hinv⟩ := h.run_of_runner hrunner
    cases hinv with
    | ready _ hnone => exact .inl hnone
    | copying _ hnone => exact .inl hnone
    | @observing observation visited remaining hobservation hsplit hcalls =>
        refine .inr ⟨observation, hobservation.symm, ?_⟩
        rw [hcalls, ← hobservers, hsplit, List.filterMap_append]
        exact List.prefix_append _ _
  · intro request houtcome
    obtain ⟨hwaiting, -, hplaced⟩ := h.reachable.finished_of_outcome houtcome
    refine ⟨?_, hwaiting, hplaced⟩
    intro i runner hrunner hmem
    rw [← hobservers]
    exact h.told_of_outcome houtcome hrunner hmem

theorem observers_told_before_futures_resolve_linger :
    lingerState.batcher.outcome 0 ≠ none ∧ ¬lingerState.batcher.Unplaced 0 := by
  have hnew : ObservedBatcher.newCopyBatcher lingerConfig [some true, none, some false] 0 =
      .ok lingerStart := rfl
  have houtcome : lingerState.batcher.outcome 0 ≠ none := by decide
  have htold := (observers_told_before_futures_resolve hnew lingerState_reached).2 0 houtcome
  exact ⟨houtcome, htold.2.2⟩

/--
Once every future has resolved, an observer that adds up the rows of its calls gets the
number of accepted rows, and it has been called once for each physical COPY.
-/
theorem observed_rows_are_accepted_rows [DecidableEq Ω] {config : CopyBatchConfig}
    {observers : List (Option Ω)} {now : Int} {start : ObservedBatcher α Ω ε}
    (hnew : ObservedBatcher.newCopyBatcher config observers now = .ok start)
    (hrun : Reaches ObservedBatcher.step start s)
    (hresolved : ∀ request < s.batcher.accepted.length, s.batcher.outcome request ≠ none)
    (observer : Ω) :
    s.seen observer (·.rowCount) =
      observers.count (some observer) * (s.batcher.accepted.map (·.rows.length)).sum ∧
    s.seen observer (fun _ => 1) =
      observers.count (some observer) * s.batcher.runners.length := by
  rw [← observers_of_run hnew hrun]
  exact (inv_of_run hnew hrun).seen_rows hresolved observer

theorem observed_rows_are_accepted_rows_linger :
    lingerState.seen true (·.rowCount) = 2 ∧ lingerState.seen false (fun _ => 1) = 1 := by
  have hnew : ObservedBatcher.newCopyBatcher lingerConfig [some true, none, some false] 0 =
      .ok lingerStart := rfl
  have hresolved : ∀ request < lingerState.batcher.accepted.length,
      lingerState.batcher.outcome request ≠ none := by decide
  have hsums := observed_rows_are_accepted_rows hnew lingerState_reached hresolved
  exact ⟨(hsums true).1, (hsums false).2⟩

/--
An observer is told of a batch of the physical COPY that it observed.  No duration is
negative, and a batch that was flushed by its timer has waited for the linger time.
-/
theorem observed_durations {config : CopyBatchConfig} {observers : List (Option Ω)} {now : Int}
    {start : ObservedBatcher α Ω ε}
    (hnew : ObservedBatcher.newCopyBatcher config observers now = .ok start)
    (hrun : Reaches ObservedBatcher.step start s) :
    ∀ call ∈ s.calls,
      (∃ runner ∈ s.batcher.runners,
        runner.observation = some call.observation.toCopyBatchObservation) ∧
      0 ≤ call.observation.executionDuration ∧ 0 ≤ call.observation.queueDuration ∧
      (call.observation.reason = some .linger →
        config.normalized.linger ≤ call.observation.queueDuration) := by
  intro call hcall
  have h := inv_of_run hnew hrun
  obtain ⟨-, runner, hrunner, hobservation, hexecution, htimes⟩ := h.call_observation hcall
  refine ⟨⟨runner, List.mem_of_getElem? hrunner, hobservation⟩, hexecution, htimes.queued, ?_⟩
  intro hreason
  have hlinger := htimes.lingered hreason
  obtain ⟨batcher, hbatcher, rfl⟩ := newCopyBatcher_eq_ok hnew
  rw [← config_of_run hbatcher (batcher_of_run hrun).2]
  omega

theorem observed_durations_linger :
    lingerState.calls.length = 2 ∧ ∀ call ∈ lingerState.calls,
      call.observation.reason = some .linger → 1000000 ≤ call.observation.queueDuration := by
  have hnew : ObservedBatcher.newCopyBatcher lingerConfig [some true, none, some false] 0 =
      .ok lingerStart := rfl
  refine ⟨rfl, fun call hcall => ?_⟩
  exact (observed_durations hnew lingerState_reached call hcall).2.2.2

end ObservedBatcher

end PgMesh.Copy
