import PgMesh.Foundation.ForkJoin
import PgMesh.Telemetry.Spans
import Mathlib.Algebra.Order.Group.Multiset

/-!
# What telemetry leaves behind

The state of the tracer, the instruments and the logger, and how it is divided
among the programs that use them.  A program owns the spans that it has started,
the measurements that it has made and the statement that it has in flight.
-/

namespace PgMesh.Telemetry

open PgMesh.Foundation

variable {ε X : Type} {B : X → Type}

/-! ## The state -/

structure SpanRecord (ε : Type) where
  parent : Option Nat
  name : String
  attributes : List KeyValue
  errors : List (GoError ε)
  status : Option String
  ended : Bool

namespace SpanRecord

def started (parent : Option Nat) (name : String) (attributes : List KeyValue) :
    SpanRecord ε :=
  ⟨parent, name, attributes, [], none, false⟩

/-- A span that has ended records nothing. -/
def apply (r : SpanRecord ε) (operation : SpanOperation ε) : SpanRecord ε :=
  if r.ended then r
  else
    match operation with
    | .setAttributes attributes => { r with attributes := r.attributes ++ attributes }
    | .recordError err => { r with errors := r.errors ++ [err] }
    | .setStatus description => { r with status := some description }
    | .finish => { r with ended := true }

end SpanRecord

structure Backend (ε : Type) where
  clock : Int
  spans : List (SpanRecord ε)
  inFlight : List KeyValue → Int
  points : List Point
  logs : List (LogRecord ε)
  executed : List Bool

namespace Backend

def empty : Backend ε := ⟨0, [], fun _ => 0, [], [], []⟩

/-- The state after an operation, or `none` if that cannot be its answer. -/
def perform (b : Backend ε) : (operation : Operation ε) → operation.Answer → Option (Backend ε)
  | .now, (now : Int) => if b.clock ≤ now then some { b with clock := now } else none
  | .start parent name attributes, (span : Nat) =>
      if span = b.spans.length then
        some { b with spans := b.spans ++ [.started parent name attributes] }
      else none
  | .onSpan span operation, _ =>
      some { b with spans := b.spans.modify span (·.apply operation) }
  | .addInFlight incr attributes, _ =>
      some { b with
        inFlight := Function.update b.inFlight attributes (b.inFlight attributes + incr) }
  | .record point, _ => some { b with points := b.points ++ [point] }
  | .enabled, _ => some b
  | .logAttrs record, _ => some { b with logs := b.logs ++ [record] }
  | .newExecution, (address : Nat) =>
      if address = b.executed.length then some { b with executed := b.executed ++ [false] }
      else none
  | .storeExecuted execution, _ =>
      some { b with executed := b.executed.set execution true }
  | .loadExecuted execution, (value : Bool) =>
      if b.executed[execution]? = some value then some b else none

end Backend

/-! ## Shares -/

@[ext] structure Share (ε : Type) where
  spans : Multiset (SpanRecord ε × Nat)
  inFlight : Multiset (List KeyValue)
  points : Multiset Point
  logs : Multiset (LogRecord ε)

namespace Share

instance : Zero (Share ε) := ⟨⟨0, 0, 0, 0⟩⟩

instance : Add (Share ε) where
  add w w' := ⟨w.spans + w'.spans, w.inFlight + w'.inFlight, w.points + w'.points,
    w.logs + w'.logs⟩

@[simp] theorem zero_spans : (0 : Share ε).spans = 0 := rfl
@[simp] theorem zero_inFlight : (0 : Share ε).inFlight = 0 := rfl
@[simp] theorem zero_points : (0 : Share ε).points = 0 := rfl
@[simp] theorem zero_logs : (0 : Share ε).logs = 0 := rfl

@[simp] theorem add_spans (w w' : Share ε) : (w + w').spans = w.spans + w'.spans := rfl
@[simp] theorem add_inFlight (w w' : Share ε) :
    (w + w').inFlight = w.inFlight + w'.inFlight := rfl
@[simp] theorem add_points (w w' : Share ε) : (w + w').points = w.points + w'.points := rfl
@[simp] theorem add_logs (w w' : Share ε) : (w + w').logs = w.logs + w'.logs := rfl

instance : AddCommMonoid (Share ε) where
  add_assoc a b c := by ext1 <;> simp [add_assoc]
  zero_add a := by ext1 <;> simp
  add_zero a := by ext1 <;> simp
  add_comm a b := by ext1 <;> simp [add_comm]
  nsmul := nsmulRec

/-- What an operation makes of the share of the program that performs it. -/
inductive Performs : Share ε → (operation : Operation ε) → operation.Answer → Share ε → Prop
  | now (w : Share ε) (now : Int) : Performs w .now now w
  | start (w : Share ε) (parent : Option Nat) (name : String) (attributes : List KeyValue)
      (span : Nat) :
      Performs w (.start parent name attributes) span
        { w with spans := (.started parent name attributes, span) ::ₘ w.spans }
  | onSpan (w : Share ε) (span : Nat) (record : SpanRecord ε)
      (rest : Multiset (SpanRecord ε × Nat)) (operation : SpanOperation ε) :
      w.spans = (record, span) ::ₘ rest →
        Performs w (.onSpan span operation) ()
          { w with spans := (record.apply operation, span) ::ₘ rest }
  | increase (w : Share ε) (attributes : List KeyValue) :
      w.inFlight = 0 →
        Performs w (.addInFlight 1 attributes) () { w with inFlight := {attributes} }
  | decrease (w : Share ε) (attributes : List KeyValue) :
      w.inFlight = {attributes} →
        Performs w (.addInFlight (-1) attributes) () { w with inFlight := 0 }
  | record (w : Share ε) (point : Point) :
      Performs w (.record point) () { w with points := point ::ₘ w.points }
  | enabled (w : Share ε) (answer : Bool) : Performs w .enabled answer w
  | logAttrs (w : Share ε) (record : LogRecord ε) :
      Performs w (.logAttrs record) () { w with logs := record ::ₘ w.logs }
  | newExecution (w : Share ε) (address : Nat) : Performs w .newExecution address w
  | storeExecuted (w : Share ε) (execution : Nat) : Performs w (.storeExecuted execution) () w
  | loadExecuted (w : Share ε) (execution : Nat) (value : Bool) :
      Performs w (.loadExecuted execution) value w

/-- The other requests leave a share alone, but may need something of it. -/
inductive Update (Needs : X → Share ε → Prop) :
    Share ε → Event (Operation ε ⊕ X) (Sum.elim Operation.Answer B) → Share ε → Prop
  | perform {w w' : Share ε} {operation : Operation ε} {answer : operation.Answer} :
      Performs w operation answer w' → Update Needs w ⟨.inl operation, answer⟩ w'
  | other {w : Share ε} {x : X} (answer : B x) :
      Needs x w → Update Needs w ⟨.inr x, answer⟩ w

/-- A share that has nothing in flight can be put beside any other. -/
theorem Performs.frame {w w' rest : Share ε} {operation : Operation ε}
    {answer : operation.Answer} (hrest : rest.inFlight = 0)
    (h : w.Performs operation answer w') : (rest + w).Performs operation answer (rest + w') := by
  cases h with
  | now now => exact .now _ _
  | start parent name attributes span =>
      rw [show rest + { w with spans := (.started parent name attributes, span) ::ₘ w.spans } =
        { rest + w with spans := (.started parent name attributes, span) ::ₘ (rest + w).spans }
        from Share.ext (Multiset.add_cons _ _ _) rfl rfl rfl]
      exact .start _ _ _ _ _
  | onSpan span record others operation hspans =>
      have hall : (rest + w).spans = (record, span) ::ₘ (rest.spans + others) := by
        rw [add_spans, hspans, Multiset.add_cons]
      rw [show rest + { w with spans := (record.apply operation, span) ::ₘ others } =
        { rest + w with spans := (record.apply operation, span) ::ₘ (rest.spans + others) }
        from Share.ext (Multiset.add_cons _ _ _) rfl rfl rfl]
      exact .onSpan _ _ _ _ _ hall
  | increase attributes hnone =>
      rw [show rest + { w with inFlight := {attributes} } =
        { rest + w with inFlight := {attributes} }
        from Share.ext rfl (by simp [hrest]) rfl rfl]
      exact .increase _ _ (by simp [hrest, hnone])
  | decrease attributes hone =>
      rw [show rest + { w with inFlight := 0 } = { rest + w with inFlight := 0 }
        from Share.ext rfl (by simp [hrest]) rfl rfl]
      exact .decrease _ _ (by simp [hrest, hone])
  | record point =>
      rw [show rest + { w with points := point ::ₘ w.points } =
        { rest + w with points := point ::ₘ (rest + w).points }
        from Share.ext rfl rfl (Multiset.add_cons _ _ _) rfl]
      exact .record _ _
  | enabled answer => exact .enabled _ _
  | logAttrs record =>
      rw [show rest + { w with logs := record ::ₘ w.logs } =
        { rest + w with logs := record ::ₘ (rest + w).logs }
        from Share.ext rfl rfl rfl (Multiset.add_cons _ _ _)]
      exact .logAttrs _ _
  | newExecution address => exact .newExecution _ _
  | storeExecuted execution => exact .storeExecuted _ _
  | loadExecuted execution value => exact .loadExecuted _ _ _

theorem Update.frame {Needs : X → Share ε → Prop} {w w' rest : Share ε}
    {event : Event (Operation ε ⊕ X) (Sum.elim Operation.Answer B)}
    (hrest : rest.inFlight = 0) (hneeds : ∀ x w, Needs x w → Needs x (rest + w))
    (h : Update Needs w event w') : Update Needs (rest + w) event (rest + w') := by
  cases h with
  | perform h => exact .perform (h.frame hrest)
  | other answer hneed => exact .other answer (hneeds _ _ hneed)

end Share

/-- The state is exactly what the share says. -/
structure Backend.Holds (b : Backend ε) (w : Share ε) : Prop where
  spans : (b.spans.zipIdx : Multiset (SpanRecord ε × Nat)) = w.spans
  inFlight : ∀ attributes, b.inFlight attributes = w.inFlight.count attributes
  points : (b.points : Multiset Point) = w.points
  logs : (b.logs : Multiset (LogRecord ε)) = w.logs

theorem Backend.holds_empty : (empty : Backend ε).Holds 0 :=
  ⟨rfl, fun _ => rfl, rfl, rfl⟩

theorem Backend.Holds.mem_iff {b : Backend ε} {w : Share ε} (h : b.Holds w)
    {record : SpanRecord ε} {span : Nat} :
    (record, span) ∈ w.spans ↔ b.spans[span]? = some record := by
  rw [← h.spans, Multiset.mem_coe, List.mem_zipIdx_iff_getElem?]

theorem coe_append_singleton {α : Type} (l : List α) (x : α) :
    ((l ++ [x] : List α) : Multiset α) = x ::ₘ (l : Multiset α) :=
  Multiset.coe_eq_coe.mpr (List.perm_append_singleton x l)

/-- Changing one element of a table changes one element of it as a multiset. -/
theorem coe_zipIdx_modify {α : Type} {l : List α} {i : Nat} {x : α}
    {rest : Multiset (α × Nat)} (f : α → α)
    (h : (l.zipIdx : Multiset (α × Nat)) = (x, i) ::ₘ rest) :
    ((l.modify i f).zipIdx : Multiset (α × Nat)) = (f x, i) ::ₘ rest := by
  have hmem : (x, i) ∈ l.zipIdx := by
    rw [← Multiset.mem_coe, h]
    exact Multiset.mem_cons_self _ _
  have hget : l[i]? = some x := List.mem_zipIdx_iff_getElem?.mp hmem
  obtain ⟨before, after, rfl, rfl⟩ := exists_split_of_getElem? hget
  have hmodify : (before ++ x :: after).modify before.length f = before ++ f x :: after := by
    rw [List.modify_eq_set_getElem?]
    simp
  have hsplit : ∀ y, ((before ++ y :: after).zipIdx : Multiset (α × Nat)) =
      (y, before.length) ::ₘ
        ((before.zipIdx ++ after.zipIdx (before.length + 1) : List _) : Multiset _) := by
    intro y
    rw [List.zipIdx_append, List.zipIdx_cons, Nat.zero_add, Multiset.cons_coe,
      Multiset.coe_eq_coe]
    exact List.perm_middle
  rw [hsplit] at h
  rw [hmodify, hsplit, (Multiset.cons_inj_right _).mp h]

/-- An operation changes the share of one program, and the other shares stay as they are. -/
theorem Backend.Holds.frame {b b' : Backend ε} {w w' rest : Share ε}
    {operation : Operation ε} {answer : operation.Answer} (h : b.Holds (w + rest))
    (hperform : b.perform operation answer = some b')
    (hupdate : w.Performs operation answer w') : b'.Holds (w' + rest) := by
  cases hupdate with
  | now now =>
      obtain ⟨-, rfl⟩ := by simpa [perform] using hperform
      exact ⟨h.spans, h.inFlight, h.points, h.logs⟩
  | start parent name attributes span =>
      obtain ⟨rfl, rfl⟩ := by simpa [perform] using hperform
      refine ⟨?_, h.inFlight, h.points, h.logs⟩
      rw [List.zipIdx_append, List.zipIdx_singleton, coe_append_singleton, h.spans]
      simp
  | onSpan span record others operation hspans =>
      obtain rfl := by simpa [perform] using hperform
      refine ⟨?_, h.inFlight, h.points, h.logs⟩
      have hall := h.spans
      rw [Share.add_spans, hspans, Multiset.cons_add] at hall
      rw [coe_zipIdx_modify _ hall]
      simp
  | increase attributes hnone =>
      obtain rfl := by simpa [perform] using hperform
      refine ⟨h.spans, ?_, h.points, h.logs⟩
      intro attributes'
      have hcount := h.inFlight attributes'
      rw [Share.add_inFlight, hnone, zero_add] at hcount
      by_cases heq : attributes' = attributes
      · subst heq
        simp [hcount, add_comm]
      · simp [heq, hcount]
  | decrease attributes hone =>
      obtain rfl := by simpa [perform] using hperform
      refine ⟨h.spans, ?_, h.points, h.logs⟩
      intro attributes'
      have hcount := h.inFlight attributes'
      rw [Share.add_inFlight, hone] at hcount
      by_cases heq : attributes' = attributes
      · subst heq
        simp [hcount]
      · simpa [heq] using hcount
  | record point =>
      obtain rfl := by simpa [perform] using hperform
      refine ⟨h.spans, h.inFlight, ?_, h.logs⟩
      rw [coe_append_singleton, h.points]
      exact (Multiset.cons_add _ _ _).symm
  | enabled answer =>
      obtain rfl := by simpa [perform] using hperform
      exact h
  | logAttrs record =>
      obtain rfl := by simpa [perform] using hperform
      refine ⟨h.spans, h.inFlight, h.points, ?_⟩
      rw [coe_append_singleton, h.logs]
      exact (Multiset.cons_add _ _ _).symm
  | newExecution address =>
      obtain ⟨-, rfl⟩ := by simpa [perform] using hperform
      exact ⟨h.spans, h.inFlight, h.points, h.logs⟩
  | storeExecuted execution =>
      obtain rfl := by simpa [perform] using hperform
      exact ⟨h.spans, h.inFlight, h.points, h.logs⟩
  | loadExecuted execution value =>
      obtain ⟨-, rfl⟩ := by simpa [perform] using hperform
      exact h

end PgMesh.Telemetry
