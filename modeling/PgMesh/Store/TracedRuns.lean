import PgMesh.Store.TracedShares

/-!
# Telemetry of calls that run at the same time

Any number of generated calls, of any queries, run in any interleaving.  The
gauge of queries in flight, the spans and the measurements are then what the
calls have contributed one by one.
-/

namespace PgMesh.Store

open PgMesh.Foundation
open PgMesh.Topology
open PgMesh.Telemetry
open Program (Follows)

variable {δ τ M R ε : Type}

/-- What the calls share, with the statements sent to the databases and their answers. -/
structure TracedState (δ τ M R ε : Type) where
  telemetry : Backend ε
  cursors : Cursors
  sent : List (Queries δ τ × M × R)

/-- How a request is answered; a statement and a wait can return anything. -/
inductive TracedServe : TracedState δ τ M R ε → TracedEvent δ τ M R ε →
    TracedState δ τ M R ε → Prop
  | perform (s : TracedState δ τ M R ε) {b : Backend ε} {operation : Operation ε}
      {answer : operation.Answer} : s.telemetry.perform operation answer = some b →
        TracedServe s ⟨.inl operation, answer⟩ { s with telemetry := b }
  | add (s : TracedState δ τ M R ε) (counter : Nat) :
      TracedServe s ⟨.inr (.add counter), s.cursors counter + 1⟩
        { s with cursors := Function.update s.cursors counter (s.cursors counter + 1) }
  | execute (s : TracedState δ τ M R ε) (queries : Queries δ τ) (message : M) (rows : R) :
      TracedServe s ⟨.inr (.execute queries message), rows⟩
        { s with sent := s.sent ++ [(queries, message, rows)] }
  | wait (s : TracedState δ τ M R ε) (err : Option (GoError ε)) :
      TracedServe s ⟨.inr .wait, err⟩ s

abbrev TracedSystem (δ τ M R ε : Type) :=
  System (TracedCall.forkJoin (δ := δ) (τ := τ) (M := M) (R := R) (ε := ε))
    (TracedState δ τ M R ε)

/-- No call has been made yet. -/
def TracedSystem.initial (cursors : Cursors) : TracedSystem δ τ M R ε :=
  ⟨⟨Backend.empty, cursors, []⟩, []⟩

abbrev TracedThread (δ τ M R ε : Type) :=
  (call : TracedCall δ τ M R ε) × call.forkJoin.Phase

def ThreadTracks (thread : TracedThread δ τ M R ε) (w : Share ε) : Prop :=
  thread.1.forkJoin.Tracks (TracedUpdate δ τ M R ε) (Nested thread.1.root) thread.1.Done
    thread.2 w

theorem holds_frame {s s' : TracedState δ τ M R ε} {event : TracedEvent δ τ M R ε}
    {w w' rest : Share ε} (hserve : TracedServe s event s')
    (hupdate : TracedUpdate δ τ M R ε w event w') (h : s.telemetry.Holds (w + rest)) :
    s'.telemetry.Holds (w' + rest) := by
  cases hupdate with
  | perform hperforms =>
      cases hserve with
      | perform hperform => exact h.frame hperform hperforms
  | other answer hneeds => cases hserve <;> exact h

/-- The telemetry is what the calls have contributed. -/
theorem TracedSystem.accounted {cursors : Cursors} {sys : TracedSystem δ τ M R ε}
    (h : System.Reaches TracedServe (TracedSystem.initial cursors) sys) :
    ∃ shares, List.Forall₂ ThreadTracks sys.threads shares ∧
      sys.state.telemetry.Holds shares.sum := by
  have hinitial : (TracedSystem.initial cursors : TracedSystem δ τ M R ε).Accounted
      (TracedUpdate δ τ M R ε) (fun call => Nested call.root) TracedCall.Done
      (fun s w => s.telemetry.Holds w) :=
    ⟨[], .nil, Backend.holds_empty⟩
  exact hinitial.reaches TracedCall.follows holds_frame h

/-! ## Shares of calls -/

theorem QueryDone.closed {q : TracedQuery ε}
    {plan : Option (RouteMode × Nat × List (Target δ τ))} {err : Option (GoError ε)}
    {w : Share ε} (h : QueryDone q plan err w) : Closed w := by
  obtain ⟨own, parts, span, rfl, ⟨record, duration, logs, -, -, hended, rfl⟩, hparts⟩ := h
  have hclosed : ∀ part ∈ parts, Closed part := by
    intro part hpart
    obtain ⟨p, -, partErr, hdone⟩ := exists_of_mem_left hparts hpart
    exact hdone.closed
  exact (closed_idle hended).add (closed_sum hclosed)

theorem TracedCall.Done.closed {call : TracedCall δ τ M R ε} {result : call.forkJoin.Result}
    {w : Share ε} (h : call.Done result w) : Closed w := by
  cases call with
  | shard call => exact QueryDone.closed h
  | fanOut call => exact QueryDone.closed h
  | copyAsync call => exact QueryDone.closed h
  | copyBatch call =>
      obtain ⟨record, span, duration, logs, -, -, hended, rfl⟩ := h
      exact closed_idle hended
  | wrapped q =>
      obtain ⟨record, span, duration, delegated, logs, -, -, hended, rfl⟩ := h
      exact closed_idle hended

/-- The call of a thread has returned. -/
def TracedThread.Returned (thread : TracedThread δ τ M R ε) : Prop :=
  ∃ result, thread.2 = .returned result

theorem ThreadTracks.nested {thread : TracedThread δ τ M R ε} {w : Share ε}
    (h : ThreadTracks thread w) : Nested thread.1.root w :=
  ForkJoin.Tracks.inv h

theorem ThreadTracks.closed {thread : TracedThread δ τ M R ε} {w : Share ε}
    (h : ThreadTracks thread w) (hreturned : thread.Returned) : Closed w := by
  obtain ⟨result, hresult⟩ := hreturned
  rw [ThreadTracks, hresult] at h
  exact TracedCall.Done.closed h.2

theorem closed_of_returned {threads : List (TracedThread δ τ M R ε)} {shares : List (Share ε)}
    (h : List.Forall₂ ThreadTracks threads shares)
    (hreturned : ∀ thread ∈ threads, thread.Returned) : Closed shares.sum := by
  refine closed_sum fun share hshare => ?_
  obtain ⟨thread, hthread, htracks⟩ := exists_of_mem_right h hshare
  exact htracks.closed (hreturned thread hthread)

/-! ## Queries in flight -/

/-- The program waits for the database. -/
def atDatabase {α : Type} : TracedMethod δ τ M R ε α → Bool
  | .ask (.inr (.execute _ _)) _ => true
  | _ => false

/-- The number of goroutines of a call that wait for the database. -/
def statementsOf {β υ α : Type} :
    Phase (Operation ε ⊕ StoreRequest δ τ M)
      (Sum.elim Operation.Answer (StoreRequest.Answer R ε)) β υ α → Nat
  | .before p => (atDatabase p).toNat
  | .forked _ running _ => running.countP fun goroutine => goroutine.any atDatabase
  | .after p => (atDatabase p).toNat
  | .returned _ => 0

def TracedSystem.statements (sys : TracedSystem δ τ M R ε) : Nat :=
  (sys.threads.map fun thread => statementsOf thread.2).sum

/-! ### Two sites -/

/-- A write on both sites, west with its mirror. -/
def siteTouch : FanOutCall Nat Nat Nat Nat Unit :=
  tracedAllShards ⟨0, false, fun _ => "error", fun _ => "failed"⟩ ⟨none, none⟩ "Sites" Nat
    siteQueries.mesh ⟨"TouchRows", .write, .execRows⟩ ⟨false, fun _ => false⟩
    ⟨id, fun n => (Int64.ofNat n, none)⟩ 7 []

def siteState : TracedState Nat Nat Nat Nat Unit := ⟨Backend.empty, fun _ => 0, []⟩

/-- East waits for its database, and west has not started. -/
theorem siteTouch_waits : ∃ (s : TracedState Nat Nat Nat Nat Unit)
    (phase : siteTouch.forkJoin.Phase),
    Relation.ReflTransGen (siteTouch.forkJoin.Alone TracedServe)
      (siteState, .before siteTouch.forkJoin.before) (s, phase) ∧
    statementsOf phase = 1 ∧
    ∃ record, s.telemetry.spans[1]? = some record ∧ record.ended = false := by
  have h : Relation.ReflTransGen (siteTouch.forkJoin.Alone TracedServe)
    (siteState, .before siteTouch.forkJoin.before) _ := .refl
  replace h := h.tail (.request (.before _ _ (0 : Nat)) (.perform _ rfl))
  replace h := h.tail (.request (.before _ _ (0 : Int)) (.perform _ rfl))
  replace h := h.tail (.request (.before _ _ ()) (.perform _ rfl))
  replace h := h.tail (.silent _ (.fork _))
  replace h := h.tail (.request (.goroutine _ [] _ _ _ (1 : Nat) _) (.perform _ rfl))
  replace h := h.tail (.request (.goroutine _ [] _ _ _ () _) (.perform _ rfl))
  replace h := h.tail (.request (.goroutine _ [] _ _ _ (0 : Int) _) (.perform _ rfl))
  exact ⟨_, _, h, rfl, _, rfl, rfl⟩

theorem siteTouch_returns : ∃ (s : TracedState Nat Nat Nat Nat Unit)
    (result : siteTouch.forkJoin.Result),
    Relation.ReflTransGen (siteTouch.forkJoin.Alone TracedServe)
      (siteState, .before siteTouch.forkJoin.before) (s, .returned result) ∧
    s.sent.length = 3 := by
  have h : Relation.ReflTransGen (siteTouch.forkJoin.Alone TracedServe)
    (siteState, .before siteTouch.forkJoin.before) _ := .refl
  replace h := h.tail (.request (.before _ _ (0 : Nat)) (.perform _ rfl))
  replace h := h.tail (.request (.before _ _ (0 : Int)) (.perform _ rfl))
  replace h := h.tail (.request (.before _ _ ()) (.perform _ rfl))
  replace h := h.tail (.silent _ (.fork _))
  replace h := h.tail (.request (.goroutine _ [] _ _ _ (1 : Nat) _) (.perform _ rfl))
  replace h := h.tail (.request (.goroutine _ [] _ _ _ () _) (.perform _ rfl))
  replace h := h.tail (.request (.goroutine _ [] _ _ _ (0 : Int) _) (.perform _ rfl))
  replace h := h.tail (.request (.goroutine _ [] _ _ _ (5 : Nat) _) (.execute ..))
  replace h := h.tail (.request (.goroutine _ [] _ _ _ (0 : Int) _) (.perform _ rfl))
  replace h := h.tail (.request (.goroutine _ [] _ _ _ () _) (.perform _ rfl))
  replace h := h.tail (.request (.goroutine _ [] _ _ _ () _) (.perform _ rfl))
  replace h := h.tail (.request (.goroutine _ [] _ _ _ () _) (.perform _ rfl))
  replace h := h.tail (.silent _ (.finish _ [] _ _ _))
  replace h := h.tail (.request (.goroutine _ [none] _ _ _ (2 : Nat) _) (.perform _ rfl))
  replace h := h.tail (.request (.goroutine _ [none] _ _ _ () _) (.perform _ rfl))
  replace h := h.tail (.request (.goroutine _ [none] _ _ _ (0 : Int) _) (.perform _ rfl))
  replace h := h.tail (.request (.goroutine _ [none] _ _ _ (5 : Nat) _) (.execute ..))
  replace h := h.tail (.request (.goroutine _ [none] _ _ _ (5 : Nat) _) (.execute ..))
  replace h := h.tail (.request (.goroutine _ [none] _ _ _ (0 : Int) _) (.perform _ rfl))
  replace h := h.tail (.request (.goroutine _ [none] _ _ _ () _) (.perform _ rfl))
  replace h := h.tail (.request (.goroutine _ [none] _ _ _ () _) (.perform _ rfl))
  replace h := h.tail (.request (.goroutine _ [none] _ _ _ () _) (.perform _ rfl))
  replace h := h.tail (.silent _ (.finish _ [none] _ _ _))
  replace h := h.tail (.silent _ (.join _ [none, none] _ (by simp)))
  replace h := h.tail (.request (.after _ _ (0 : Int)) (.perform _ rfl))
  replace h := h.tail (.request (.after _ _ ()) (.perform _ rfl))
  replace h := h.tail (.request (.after _ _ ()) (.perform _ rfl))
  replace h := h.tail (.silent _ (.return _))
  exact ⟨_, _, h, rfl⟩

theorem reaches_siteTouch {s : TracedState Nat Nat Nat Nat Unit}
    {phase : siteTouch.forkJoin.Phase}
    (h : Relation.ReflTransGen (siteTouch.forkJoin.Alone TracedServe)
      (siteState, .before siteTouch.forkJoin.before) (s, phase)) :
    System.Reaches TracedServe (TracedSystem.initial fun _ => 0)
      (⟨s, [⟨.fanOut siteTouch, phase⟩]⟩ : TracedSystem Nat Nat Nat Nat Unit) := by
  refine Relation.ReflTransGen.head ?_
    (System.Reaches.of_alone TracedCall.forkJoin (.fanOut siteTouch) h)
  exact .call siteState [] (TracedCall.fanOut siteTouch)

/-! ### The gauge -/

theorem inFlight_of_atDatabase [Inhabited R] {α : Type} {I : Share ε → Prop}
    {post : α → Share ε → Prop} {p : TracedMethod δ τ M R ε α} {w : Share ε}
    (h : p.Follows (TracedUpdate δ τ M R ε) I post w) :
    (atDatabase p).toNat ≤ w.inFlight.card := by
  cases hat : atDatabase p with
  | false => exact Nat.zero_le _
  | true =>
      cases p with
      | done value => cases hat
      | ask request next =>
          cases request with
          | inl operation => cases hat
          | inr request =>
              cases request with
              | add counter => cases hat
              | wait => cases hat
              | execute queries message =>
                  obtain ⟨w', hupdate, -⟩ := h.2 (default : R)
                  cases hupdate with
                  | other answer hneeds => exact Multiset.card_pos.mpr hneeds

theorem inFlight_of_slots [Inhabited R] {υ : Type}
    {running : List (Option (TracedMethod δ τ M R ε υ))}
    {specs : List (GoroutineSpec (Share ε) υ)} {shares : List (Share ε)}
    (h : Slots (TracedUpdate δ τ M R ε) running specs shares) :
    running.countP (fun goroutine => goroutine.any atDatabase) ≤ shares.sum.inFlight.card := by
  induction h with
  | nil => exact Nat.zero_le _
  | @cons slot spec share slots specs shares hslot _ ih =>
      have hhead : (slot.any atDatabase).toNat ≤ share.inFlight.card := by
        cases slot with
        | none => exact Nat.zero_le _
        | some p => exact inFlight_of_atDatabase hslot
      rw [List.countP_cons, List.sum_cons, Share.add_inFlight, Multiset.card_add, add_comm]
      refine Nat.add_le_add (le_of_eq_of_le ?_ hhead) ih
      cases slot.any atDatabase <;> rfl

theorem ThreadTracks.statements [Inhabited R] {thread : TracedThread δ τ M R ε} {w : Share ε}
    (h : ThreadTracks thread w) : statementsOf thread.2 ≤ w.inFlight.card := by
  obtain ⟨call, phase⟩ := thread
  cases phase with
  | before p => exact inFlight_of_atDatabase h
  | forked locals running completions =>
      obtain ⟨share, shares, specs, rfl, hslots, -⟩ := h
      rw [Share.add_inFlight, Multiset.card_add]
      exact (inFlight_of_slots hslots).trans (Nat.le_add_left _ _)
  | after p => exact inFlight_of_atDatabase h
  | returned value => exact Nat.zero_le _

theorem statements_le [Inhabited R] {threads : List (TracedThread δ τ M R ε)}
    {shares : List (Share ε)} (h : List.Forall₂ ThreadTracks threads shares) :
    (threads.map fun thread => statementsOf thread.2).sum ≤ shares.sum.inFlight.card := by
  induction h with
  | nil => exact Nat.zero_le _
  | cons hhead _ ih =>
      rw [List.map_cons, List.sum_cons, List.sum_cons, Share.add_inFlight, Multiset.card_add]
      exact Nat.add_le_add hhead.statements ih

/-- The attributes of the open spans. -/
def openAttributes (w : Share ε) : Multiset (List KeyValue) :=
  (w.spans.filter fun entry => entry.1.ended = false).map fun entry => entry.1.attributes

@[simp] theorem openAttributes_add (w w' : Share ε) :
    openAttributes (w + w') = openAttributes w + openAttributes w' := by
  simp [openAttributes]

theorem inFlight_of_oneSpan {parent : Option Nat} {w : Share ε} (h : OneSpan parent w) :
    w.inFlight ≤ openAttributes w := by
  rcases h with ⟨-, hidle⟩ | ⟨record, span, hspans, -, hidle | ⟨hflight, hopen⟩⟩
  · rw [hidle]
    exact Multiset.zero_le _
  · rw [hidle]
    exact Multiset.zero_le _
  · simp [openAttributes, hspans, hflight, hopen, Multiset.filter_singleton]

theorem inFlight_sum {shares : List (Share ε)}
    (h : ∀ share ∈ shares, share.inFlight ≤ openAttributes share) :
    shares.sum.inFlight ≤ openAttributes shares.sum := by
  induction shares with
  | nil => exact Multiset.zero_le _
  | cons share shares ih =>
      rw [List.sum_cons, Share.add_inFlight, openAttributes_add]
      exact add_le_add (h share List.mem_cons_self)
        (ih fun share' hmem => h share' (List.mem_cons_of_mem _ hmem))

theorem Nested.inFlight {root : Option Nat} {w : Share ε} (h : Nested root w) :
    w.inFlight ≤ openAttributes w := by
  obtain ⟨own, parts, parent, rfl, hown, hparts, -⟩ := h
  rw [Share.add_inFlight, openAttributes_add]
  exact add_le_add (inFlight_of_oneSpan hown)
    (inFlight_sum fun part hpart => inFlight_of_oneSpan (hparts part hpart))

/-- The number of open spans with these attributes. -/
def openWith (b : Backend ε) (attributes : List KeyValue) : Nat :=
  b.spans.countP fun record => !record.ended && record.attributes = attributes

theorem count_openAttributes {b : Backend ε} {w : Share ε} (h : b.Holds w)
    (attributes : List KeyValue) :
    (openAttributes w).count attributes = openWith b attributes := by
  unfold openWith
  conv_rhs => rw [← List.zipIdx_map_fst 0 b.spans, List.countP_map]
  rw [openAttributes, Multiset.count_map, Multiset.filter_filter, ← h.spans,
    Multiset.filter_coe, Multiset.coe_card, ← List.countP_eq_length_filter]
  congr 1
  funext entry
  cases hended : entry.1.ended <;> simp [hended, eq_comm]

/--
The gauge of queries in flight counts, for each set of attributes, queries whose
span is open, among them every one that waits for the database, and it is back
at zero when all calls have returned.
-/
theorem in_flight_counts_open_queries [Inhabited R] {cursors : Cursors}
    {sys : TracedSystem δ τ M R ε}
    (h : System.Reaches TracedServe (TracedSystem.initial cursors) sys) :
    (∀ attributes, 0 ≤ sys.state.telemetry.inFlight attributes ∧
      sys.state.telemetry.inFlight attributes ≤ openWith sys.state.telemetry attributes) ∧
    (∃ running : Multiset (List KeyValue), sys.statements ≤ running.card ∧
      ∀ attributes, sys.state.telemetry.inFlight attributes = running.count attributes) ∧
    ((∀ thread ∈ sys.threads, TracedThread.Returned thread) →
      ∀ attributes, sys.state.telemetry.inFlight attributes = 0) := by
  obtain ⟨shares, htracks, hholds⟩ := TracedSystem.accounted h
  have hopen : shares.sum.inFlight ≤ openAttributes shares.sum := by
    refine inFlight_sum fun share hshare => ?_
    obtain ⟨thread, -, hthread⟩ := exists_of_mem_right htracks hshare
    exact hthread.nested.inFlight
  refine ⟨?_, ⟨_, statements_le htracks, hholds.inFlight⟩, ?_⟩
  · intro attributes
    rw [hholds.inFlight, ← count_openAttributes hholds]
    exact ⟨Int.natCast_nonneg _, Int.ofNat_le.mpr (Multiset.count_le_of_le _ hopen)⟩
  · intro hreturned attributes
    rw [hholds.inFlight, (closed_of_returned htracks hreturned).1]
    rfl

theorem in_flight_counts_open_queries_two_sites :
    ∃ sys : TracedSystem Nat Nat Nat Nat Unit, sys.statements = 1 ∧
      ∃ running : Multiset (List KeyValue), sys.statements ≤ running.card ∧
        ∀ attributes, sys.state.telemetry.inFlight attributes = running.count attributes := by
  obtain ⟨s, phase, h, hstatements, -⟩ := siteTouch_waits
  exact ⟨⟨s, [⟨.fanOut siteTouch, phase⟩]⟩, hstatements,
    (in_flight_counts_open_queries (reaches_siteTouch h)).2.1⟩

/-! ## Spans -/

theorem mem_sum_spans {entry : SpanRecord ε × Nat} {shares : List (Share ε)} :
    entry ∈ shares.sum.spans ↔ ∃ share ∈ shares, entry ∈ share.spans := by
  induction shares with
  | nil => simp
  | cons share shares ih => simp [ih]

theorem parent_of_oneSpan {parent : Option Nat} {w : Share ε} (h : OneSpan parent w)
    {entry : SpanRecord ε × Nat} (hentry : entry ∈ w.spans) : entry.1.parent = parent := by
  rcases h with ⟨hnone, -⟩ | ⟨record, span, hspans, hparent, -⟩
  · rw [hnone] at hentry
    cases Multiset.notMem_zero _ hentry
  · rw [hspans] at hentry
    rw [Multiset.mem_singleton.mp hentry]
    exact hparent

/-- An open span of a call is its own, or a child of its own, which is open then. -/
theorem Nested.open_entry {root : Option Nat} {w : Share ε} (h : Nested root w)
    {entry : SpanRecord ε × Nat} (hentry : entry ∈ w.spans) (hopen : entry.1.ended = false) :
    entry.1.parent = root ∨ ∃ own ∈ w.spans, entry.1.parent = some own.2 ∧
      own.1.ended = false ∧ own.1.parent = root := by
  obtain ⟨own, parts, parent, rfl, hown, hparts, hclosed⟩ := h
  rcases Multiset.mem_add.mp hentry with hentry | hentry
  · exact .inl (parent_of_oneSpan hown hentry)
  · obtain ⟨part, hpart, hentry⟩ := mem_sum_spans.mp hentry
    rcases hclosed with hclosed | ⟨-, record, hspans, hended⟩
    · rw [(hclosed part hpart).2 entry hentry] at hopen
      cases hopen
    · have hmem : (record, parent) ∈ own.spans := by
        rw [hspans]
        exact Multiset.mem_singleton_self _
      exact .inr ⟨(record, parent), Multiset.mem_add.mpr (.inl hmem),
        parent_of_oneSpan (hparts part hpart) hentry, hended, parent_of_oneSpan hown hmem⟩

/--
An open span belongs to a call that has not returned.  It was started in the
context of that call, or it is a child of the span that was, and then that
span is open as well.
-/
theorem open_spans_nest {cursors : Cursors} {sys : TracedSystem δ τ M R ε}
    (h : System.Reaches TracedServe (TracedSystem.initial cursors) sys) {span : Nat}
    {record : SpanRecord ε} (hspan : sys.state.telemetry.spans[span]? = some record)
    (hopen : record.ended = false) :
    ∃ thread ∈ sys.threads, ¬ TracedThread.Returned thread ∧
      (record.parent = thread.1.root ∨ ∃ parent parentRecord,
        record.parent = some parent ∧ sys.state.telemetry.spans[parent]? = some parentRecord ∧
          parentRecord.ended = false ∧ parentRecord.parent = thread.1.root) := by
  obtain ⟨shares, htracks, hholds⟩ := TracedSystem.accounted h
  obtain ⟨share, hshare, hentry⟩ := mem_sum_spans.mp (hholds.mem_iff.mpr hspan)
  obtain ⟨thread, hthread, htrack⟩ := exists_of_mem_right htracks hshare
  refine ⟨thread, hthread, ?_, ?_⟩
  · intro hreturned
    have hended := (htrack.closed hreturned).2 _ hentry
    rw [hopen] at hended
    cases hended
  · rcases htrack.nested.open_entry hentry hopen with hroot | ⟨own, hown, hparent, hended, hroot⟩
    · exact .inl hroot
    · have hmem := hholds.mem_iff.mp (mem_sum_spans.mpr ⟨share, hshare, hown⟩)
      exact .inr ⟨own.2, own.1, hparent, hmem, hended, hroot⟩

theorem open_spans_nest_two_sites :
    ∃ (sys : TracedSystem Nat Nat Nat Nat Unit) (record : SpanRecord Unit),
      sys.state.telemetry.spans[1]? = some record ∧ record.ended = false ∧
      ∃ thread ∈ sys.threads, ¬ TracedThread.Returned thread ∧
        (record.parent = thread.1.root ∨ ∃ parent parentRecord,
          record.parent = some parent ∧
            sys.state.telemetry.spans[parent]? = some parentRecord ∧
            parentRecord.ended = false ∧ parentRecord.parent = thread.1.root) := by
  obtain ⟨s, phase, h, -, record, hspan, hopen⟩ := siteTouch_waits
  exact ⟨_, record, hspan, hopen, open_spans_nest (reaches_siteTouch h) hspan hopen⟩

/-! ## Measurements -/

/-- The measurement of one physical query of a call. -/
def PartMeasured (q : TracedQuery ε) (point : Point) (p : RouteMode × Target δ τ) : Prop :=
  ∃ metadata duration partErr, p.2.Offers metadata ∧
    point = ⟨.physicalDuration, duration,
      physicalAttributes q.storeName q.queryName q.kind metadata p.1 ++
        errorAttributes q.telemetry partErr⟩

/-- One measurement for the logical query and one for each target. -/
def QueryMeasured (q : TracedQuery ε) (plan : Option (RouteMode × Nat × List (Target δ τ)))
    (err : Option (GoError ε)) (points : Multiset Point) : Prop :=
  ∃ (duration : Int) (parts : List Point),
    points = ⟨.logicalDuration, duration,
      logicalAttributes q.storeName q.queryName q.kind (plan.map fun p => (p.1, p.2.1)) ++
        errorAttributes q.telemetry err⟩ ::ₘ (parts : Multiset Point) ∧
    List.Forall₂ (PartMeasured q) parts
      ((plan.map fun p => p.2.2.map fun t => (p.1, t)).getD [])

def TracedCall.Measured : (call : TracedCall δ τ M R ε) → call.forkJoin.Result →
    Multiset Point → Prop
  | .shard call, result, points => QueryMeasured call.query call.plan result.2 points
  | .fanOut call, result, points => QueryMeasured call.query call.planned result.2 points
  | .copyAsync call, err, points => QueryMeasured (δ := δ) (τ := τ) call.query
      (call.groups.map fun groups => (.primary, groups, [])) err points
  | .copyBatch call, result, points => ∃ duration,
      points = {⟨.physicalDuration, duration,
        physicalAttributes call.query.storeName call.query.queryName .write
          call.route.metadata .primary ++ errorAttributes call.query.telemetry result.2⟩}
  | .wrapped q, err, points => ∃ duration delegated,
      points = {⟨.storeDuration, duration,
        queryAttributes q.storeName q.queryName q.kind ++
          [⟨attributeStoreDelegated, .bool delegated⟩] ++ errorAttributes q.telemetry err⟩}

theorem parts_measured {q : TracedQuery ε} {span : Nat} {parts : List (Share ε)}
    {ps : List (RouteMode × Target δ τ)}
    (h : List.Forall₂ (fun part p => ∃ partErr, TargetDone q span p.1 p.2 partErr part)
      parts ps) :
    ∃ points : List Point, parts.sum.points = points ∧
      List.Forall₂ (PartMeasured q) points ps := by
  induction h with
  | nil => exact ⟨[], rfl, .nil⟩
  | cons hpart _ ih =>
      obtain ⟨partErr, metadata, hoffers, record, index, duration, logs, -, -, -, rfl⟩ := hpart
      obtain ⟨points, hpoints, hrest⟩ := ih
      refine ⟨_ :: points, ?_, .cons ⟨metadata, duration, partErr, hoffers, rfl⟩ hrest⟩
      rw [List.sum_cons, Share.add_points, hpoints]
      rfl

theorem QueryDone.measured {q : TracedQuery ε}
    {plan : Option (RouteMode × Nat × List (Target δ τ))} {err : Option (GoError ε)}
    {w : Share ε} (h : QueryDone q plan err w) : QueryMeasured q plan err w.points := by
  obtain ⟨own, parts, span, rfl, ⟨record, duration, logs, -, -, -, rfl⟩, hparts⟩ := h
  obtain ⟨points, hpoints, hrest⟩ := parts_measured hparts
  refine ⟨duration, points, ?_, hrest⟩
  rw [Share.add_points, hpoints]
  exact Multiset.singleton_add _ _

theorem TracedCall.Done.measured {call : TracedCall δ τ M R ε}
    {result : call.forkJoin.Result} {w : Share ε} (h : call.Done result w) :
    call.Measured result w.points := by
  cases call with
  | shard call => exact QueryDone.measured h
  | fanOut call => exact QueryDone.measured h
  | copyAsync call => exact QueryDone.measured h
  | copyBatch call =>
      obtain ⟨record, span, duration, logs, -, -, -, rfl⟩ := h
      exact ⟨duration, rfl⟩
  | wrapped q =>
      obtain ⟨record, span, duration, delegated, logs, -, -, -, rfl⟩ := h
      exact ⟨duration, delegated, rfl⟩

theorem sum_points (shares : List (Share ε)) :
    shares.sum.points = (shares.map Share.points).sum := by
  induction shares with
  | nil => rfl
  | cons share shares ih => rw [List.sum_cons, Share.add_points, ih, List.map_cons, List.sum_cons]

/--
The measurements recorded are those of the calls, and a call that has returned
has made exactly one for its logical query and one for each replica set that it
queried, with the same route mode, and an error type if it returned an error.
-/
theorem returned_calls_are_measured {cursors : Cursors} {sys : TracedSystem δ τ M R ε}
    (h : System.Reaches TracedServe (TracedSystem.initial cursors) sys) :
    ∃ points : List (Multiset Point),
      (sys.state.telemetry.points : Multiset Point) = points.sum ∧
      List.Forall₂ (fun (thread : TracedThread δ τ M R ε) points =>
        ∀ result, thread.2 = .returned result → thread.1.Measured result points)
        sys.threads points := by
  obtain ⟨shares, htracks, hholds⟩ := TracedSystem.accounted h
  refine ⟨shares.map Share.points, ?_, ?_⟩
  · rw [hholds.points, sum_points]
  · rw [List.forall₂_map_right_iff]
    refine htracks.imp ?_
    intro thread share htrack result hresult
    rw [ThreadTracks, hresult] at htrack
    exact TracedCall.Done.measured htrack.2

theorem returned_calls_are_measured_two_sites :
    ∃ (s : TracedState Nat Nat Nat Nat Unit) (result : siteTouch.forkJoin.Result)
      (points : List (Multiset Point)),
      (s.telemetry.points : Multiset Point) = points.sum ∧
      List.Forall₂ (fun (thread : TracedThread Nat Nat Nat Nat Unit) points =>
        ∀ result, thread.2 = .returned result → thread.1.Measured result points)
        [⟨.fanOut siteTouch, .returned result⟩] points := by
  obtain ⟨s, result, h, -⟩ := siteTouch_returns
  exact ⟨s, result, returned_calls_are_measured (reaches_siteTouch h)⟩

end PgMesh.Store
