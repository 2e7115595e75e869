import Mathlib.Data.Int.CardIntervalMod
import Mathlib.Data.List.Perm.Basic

/-!
# Going round a list

The turns of a list are numbered from zero; turn `i` is its element at `i`
modulo its length.  Any window as long as the list meets every element once,
and the first turns are spread evenly.
-/

namespace PgMesh.Foundation

variable {α : Type}

def turn (l : List α) (h : l ≠ []) (i : Nat) : α :=
  l.get ⟨i % l.length, Nat.mod_lt _ (List.length_pos_iff.mpr h)⟩

/-- The turns from `start` on, as many as `count`. -/
def turns (l : List α) (h : l ≠ []) (start count : Nat) : List α :=
  (List.range' start count).map (turn l h)

variable {l : List α} {h : l ≠ []}

@[simp] theorem length_turns (start count : Nat) : (turns l h start count).length = count := by
  simp [turns]

theorem turn_add_length (i : Nat) : turn l h (i + l.length) = turn l h i := by
  simp [turn]

theorem turns_zero_length : turns l h 0 l.length = l := by
  apply List.ext_getElem
  · simp
  · intro i hi hl
    have hmod : i % l.length = i := Nat.mod_eq_of_lt hl
    simp [turns, turn, hmod]

/-- Sliding the window by one swaps an element out and the same one in. -/
theorem turns_perm (start : Nat) : (turns l h start l.length).Perm l := by
  induction start with
  | zero => rw [turns_zero_length]
  | succ start ih =>
      obtain ⟨n, hn⟩ := Nat.exists_eq_succ_of_ne_zero
        (Nat.pos_iff_ne_zero.mp (List.length_pos_iff.mpr h))
      have hout : turns l h start l.length = turn l h start :: turns l h (start + 1) n := by
        rw [hn, turns, List.range'_succ, List.map_cons]
        rfl
      have hin : turns l h (start + 1) l.length =
          turns l h (start + 1) n ++ [turn l h start] := by
        have hlast : turn l h (start + 1 + 1 * n) = turn l h start := by
          rw [← turn_add_length start, hn]
          congr 1
          omega
        rw [hn, turns, List.range'_concat, List.map_append, List.map_singleton, hlast]
        rfl
      rw [hin]
      rw [hout] at ih
      exact (List.perm_append_singleton _ _).trans ih

theorem drop_take_turns {start count from' number : Nat} (hle : from' + number ≤ count) :
    ((turns l h start count).drop from').take number = turns l h (start + from') number := by
  unfold turns
  rw [← List.map_drop, ← List.map_take]
  congr 1
  apply List.ext_getElem
  · simp
    omega
  · intro i hi hi'
    simp

theorem turn_eq_iff (hnodup : l.Nodup) {i j : Nat} (hj : j < l.length) :
    turn l h i = l[j] ↔ i ≡ j [MOD l.length] := by
  unfold turn
  rw [List.get_eq_getElem, hnodup.getElem_inj_iff, Nat.ModEq, Nat.mod_eq_of_lt hj]

/-- The first turns are spread evenly over the elements, the earlier ones first. -/
theorem count_turns [DecidableEq α] (hnodup : l.Nodup) {j : Nat} (hj : j < l.length) (count : Nat) :
    (turns l h 0 count).count l[j] =
      count / l.length + if j < count % l.length then 1 else 0 := by
  have hcount : (turns l h 0 count).count l[j] = Nat.count (· ≡ j [MOD l.length]) count := by
    induction count with
    | zero => simp [turns]
    | succ count ih =>
        have hsplit : turns l h 0 (count + 1) = turns l h 0 count ++ [turn l h count] := by
          rw [turns, List.range'_concat, List.map_append, List.map_singleton]
          simp [turns]
        rw [hsplit, List.count_append, ih, Nat.count_succ, List.count_singleton]
        simp only [beq_iff_eq, turn_eq_iff hnodup hj]
  rw [hcount, Nat.count_modEq_card _ (by omega), Nat.mod_eq_of_lt hj]

end PgMesh.Foundation
