import Mathlib

/-!
# Loop rules

Invariants of a counted loop, indexed by the counter, and of a loop that may fail, indexed by the
elements it has consumed.
-/

namespace Tc8Harness.Loops

variable {σ α ε : Type*}

theorem foldl_range_invariant {f : σ → Nat → σ} (Inv : Nat → σ → Prop) {s : σ} {n : Nat}
    (hinit : Inv 0 s) (hstep : ∀ k s, k < n → Inv k s → Inv (k + 1) (f s k)) :
    Inv n ((List.range n).foldl f s) := by
  induction n with
  | zero => exact hinit
  | succ n ih =>
    rw [List.range_succ, List.foldl_append, List.foldl_cons, List.foldl_nil]
    apply hstep n _ (Nat.lt_succ_self n)
    apply ih
    intro k s hk
    exact hstep k s (Nat.lt_succ_of_lt hk)

/-- A fallible loop that ends well has taken every step well. -/
theorem foldlM_ok_invariant {f : σ → α → Except ε σ} (Inv : List α → σ → Prop)
    (hstep : ∀ done a s s', Inv done s → f s a = .ok s' → Inv (done ++ [a]) s')
    {s s' : σ} {as : List α} (hinit : Inv [] s) (h : as.foldlM f s = .ok s') : Inv as s' := by
  suffices hrun : ∀ as done s, Inv done s → as.foldlM f s = .ok s' → Inv (done ++ as) s' from
    hrun as [] s hinit h
  intro as
  induction as with
  | nil =>
    intro done s hs hend
    obtain rfl : s = s' := Except.ok.inj hend
    rw [List.append_nil]
    exact hs
  | cons a as ih =>
    intro done s hs hrun
    rw [List.foldlM_cons] at hrun
    cases ha : f s a with
    | error e =>
      rw [ha] at hrun
      nomatch hrun
    | ok s₁ =>
      rw [ha] at hrun
      have hrest := ih (done ++ [a]) s₁ (hstep done a s s₁ hs ha) hrun
      rw [List.append_assoc] at hrest
      exact hrest

end Tc8Harness.Loops
