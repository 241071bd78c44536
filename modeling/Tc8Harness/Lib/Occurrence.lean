import Mathlib.Data.List.DropRight
import Mathlib.Data.List.Infix

/-!
# Occurrences in a list that grows

Where a word occurs in what was there and what came (`EndsIn`). An occurrence that ends in what came lies
in it and the last `w.length - 1` elements before it (`infix_rtake_append_iff`), so a search that keeps
these misses none and finds none twice.
-/

namespace Tc8Harness.Occurrence

variable {α : Type*} {w past new : List α}

/-- The sublists of `n` neighbours. -/
def windows (n : Nat) : List α → List (List α)
  | [] => []
  | x :: xs => if n ≤ (x :: xs).length then (x :: xs).take n :: windows n xs else []

theorem mem_windows_iff (hw : w ≠ []) (l : List α) : w ∈ windows w.length l ↔ w <:+: l := by
  induction l with
  | nil => simp [windows, hw]
  | cons x xs ih =>
    rw [windows, List.infix_cons_iff, ← ih]
    split
    · next hlen =>
      rw [List.mem_cons, List.prefix_iff_eq_take]
    · next hlen =>
      have hshort : ¬ w <+: x :: xs := fun h => hlen h.length_le
      have hnone : w ∉ windows w.length xs := by
        rw [ih]
        intro h
        exact hlen (Nat.le_trans h.length_le (Nat.le_succ _))
      simp [hshort, hnone]

/-- An occurrence of `w` ends in `new`. -/
def EndsIn (w past new : List α) : Prop :=
  ∃ front back, past ++ new = front ++ w ++ back ∧ past.length < (front ++ w).length

/-- A word occurs where it did before, or ends in what came. -/
theorem infix_append_iff_endsIn : w <:+: past ++ new ↔ w <:+: past ∨ EndsIn w past new := by
  constructor
  · rintro ⟨front, back, h⟩
    by_cases hend : past.length < (front ++ w).length
    · exact .inr ⟨front, back, h.symm, hend⟩
    · refine .inl ?_
      have hprefix : front ++ w <+: past :=
        List.prefix_of_prefix_length_le ⟨back, h⟩ (List.prefix_append past new) (Nat.le_of_not_lt hend)
      exact (List.infix_append' front w []).trans (by rw [List.append_nil]; exact hprefix.isInfix)
  · rintro (h | ⟨front, back, h, -⟩)
    · exact h.trans (List.prefix_append past new).isInfix
    · exact ⟨front, back, h.symm⟩

/-- What came and the end of what was there are enough to find the occurrences that end in what came. -/
theorem infix_rtake_append_iff (hw : w ≠ []) :
    w <:+: past.rtake (w.length - 1) ++ new ↔ EndsIn w past new := by
  have hpos : 0 < w.length := List.length_pos_iff.2 hw
  have hlen : (past.rtake (w.length - 1)).length = min (w.length - 1) past.length := by
    rw [List.rtake, List.length_drop]
    omega
  constructor
  · rintro ⟨front, back, h⟩
    refine ⟨past.take (past.length - (w.length - 1)) ++ front, back, ?_, ?_⟩
    · have hpast : past = past.take (past.length - (w.length - 1)) ++ past.rtake (w.length - 1) :=
        (List.take_append_drop _ past).symm
      rw [List.append_assoc, List.append_assoc, ← List.append_assoc front, h, ← List.append_assoc, ← hpast]
    · rw [List.length_append, List.length_append, List.length_take]
      omega
  · rintro ⟨front, back, h, hend⟩
    rw [List.length_append] at hend
    have hfront : past.length - (w.length - 1) ≤ front.length := by omega
    have hdrop := congrArg (List.drop (past.length - (w.length - 1))) h
    rw [List.drop_append_of_le_length (Nat.sub_le _ _), List.append_assoc,
      List.drop_append_of_le_length hfront, ← List.append_assoc] at hdrop
    exact ⟨_, back, hdrop.symm⟩

/-- The end of a longer list, from the end of the shorter one. -/
theorem rtake_append_rtake (n : Nat) (past new : List α) :
    (past.rtake n ++ new).rtake n = (past ++ new).rtake n := by
  simp only [List.rtake, List.length_append, List.length_drop, List.drop_append, List.drop_drop]
  congr 1
  · congr 1
    omega
  · congr 1
    omega

end Tc8Harness.Occurrence
