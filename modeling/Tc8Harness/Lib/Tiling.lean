import Mathlib.Data.List.Basic
import Mathlib.Tactic.Basic

/-!
# Tilings of an interval

Spans are elements of any type with a `start` and a `len`. A list of spans `Tiles` an interval when
each begins where the one before it ends; a tiling of `[0, n)` partitions it (`Tiles.partitions`):
every position below `n` lies in exactly one span and no span reaches past `n`. Spans of length
zero may stand anywhere in a tiling and can be left out of it (`Tiles.filter_len`).
-/

namespace Tc8Harness.Tiling

variable {α : Type} (start len : α → Nat)

/-- Position `b` lies in the span `x`. -/
def Covers (x : α) (b : Nat) : Prop := start x ≤ b ∧ b < start x + len x

instance (x : α) (b : Nat) : Decidable (Covers start len x b) :=
  inferInstanceAs (Decidable (_ ∧ _))

/-- The spans of the list stand end to end, from `a` to `e`. -/
def Tiles : Nat → List α → Nat → Prop
  | a, [], e => a = e
  | a, x :: xs, e => start x = a ∧ Tiles (a + len x) xs e

/-- Every position below `n` lies in exactly one span of the list, and no span ends past `n`. -/
def Partitions (xs : List α) (n : Nat) : Prop :=
  (∀ x ∈ xs, start x + len x ≤ n) ∧ ∀ b < n, ∃! i : Fin xs.length, Covers start len (xs.get i) b

variable {start len}

namespace Tiles

theorem le {a e : Nat} {xs : List α} (h : Tiles start len a xs e) : a ≤ e := by
  induction xs generalizing a with
  | nil => exact Nat.le_of_eq h
  | cons x xs ih =>
    have := ih h.2
    omega

theorem bounds {a e : Nat} {xs : List α} (h : Tiles start len a xs e) :
    ∀ x ∈ xs, a ≤ start x ∧ start x + len x ≤ e := by
  induction xs generalizing a with
  | nil => intro x hx; cases hx
  | cons y ys ih =>
    obtain ⟨hy, ht⟩ := h
    intro x hx
    rcases List.mem_cons.1 hx with rfl | hx
    · have := ht.le
      omega
    · have := ih ht x hx
      omega

/-- Some span of a tiling holds each position of the interval. -/
theorem exists_covers {a e b : Nat} {xs : List α} (h : Tiles start len a xs e) (ha : a ≤ b)
    (hb : b < e) : ∃ i : Fin xs.length, Covers start len (xs.get i) b := by
  induction xs generalizing a with
  | nil =>
    have : a = e := h
    omega
  | cons x xs ih =>
    obtain ⟨hx, ht⟩ := h
    by_cases hin : b < a + len x
    · exact ⟨⟨0, by simp⟩, by constructor <;> simp <;> omega⟩
    · obtain ⟨i, hi⟩ := ih ht (by omega)
      exact ⟨i.succ, by simpa using hi⟩

/-- No two spans of a tiling hold the same position. -/
theorem covers_unique {a e b : Nat} {xs : List α} (h : Tiles start len a xs e)
    {i j : Fin xs.length} (hi : Covers start len (xs.get i) b)
    (hj : Covers start len (xs.get j) b) : i = j := by
  induction xs generalizing a with
  | nil => exact i.elim0
  | cons x xs ih =>
    obtain ⟨hx, ht⟩ := h
    -- A span of the tail begins where the head ends, so the head shares no position with it.
    have hsep : ∀ k : Fin xs.length, Covers start len x b → ¬ Covers start len (xs.get k) b := by
      intro k hc hk
      have := (ht.bounds (xs.get k) (List.get_mem xs k)).1
      have h1 := hc.2
      have h2 := hk.1
      omega
    cases i using Fin.cases with
    | zero =>
      cases j using Fin.cases with
      | zero => rfl
      | succ j => exact absurd (by simpa using hj) (hsep j (by simpa using hi))
    | succ i =>
      cases j using Fin.cases with
      | zero => exact absurd (by simpa using hi) (hsep i (by simpa using hj))
      | succ j => rw [ih ht (i := i) (j := j) (by simpa using hi) (by simpa using hj)]

/-- A tiling of `[0, n)` is a partition of it. -/
theorem partitions {n : Nat} {xs : List α} (h : Tiles start len 0 xs n) :
    Partitions start len xs n := by
  refine ⟨fun x hx => (h.bounds x hx).2, fun b hb => ?_⟩
  obtain ⟨i, hi⟩ := h.exists_covers (Nat.zero_le b) hb
  exact ⟨i, hi, fun j hj => h.covers_unique hj hi⟩

/-- Empty spans can be left out of a tiling. -/
theorem filter_len {a e : Nat} {xs : List α} (h : Tiles start len a xs e) :
    Tiles start len a (xs.filter fun x => len x != 0) e := by
  induction xs generalizing a with
  | nil => exact h
  | cons x xs ih =>
    obtain ⟨hx, ht⟩ := h
    by_cases hz : len x = 0
    · rw [List.filter_cons_of_neg (by simp [hz])]
      rw [hz] at ht
      exact ih ht
    · rw [List.filter_cons_of_pos (by simp [hz])]
      exact ⟨hx, ih ht⟩

/-- Two non-empty spans that both end where the tiling ends are one span. -/
theorem last_unique {n : Nat} {xs : List α} (h : Tiles start len 0 xs n) {i j : Fin xs.length}
    (hi : start (xs.get i) + len (xs.get i) = n) (hj : start (xs.get j) + len (xs.get j) = n)
    (hi0 : len (xs.get i) ≠ 0) (hj0 : len (xs.get j) ≠ 0) : i = j := by
  apply h.covers_unique (b := n - 1) <;> constructor <;> omega

/-- Spans may be replaced by others with the same extents. -/
theorem map {β : Type} {start' len' : β → Nat} (f : α → β) {a e : Nat} {xs : List α}
    (h : Tiles start len a xs e) (hf : ∀ x ∈ xs, start' (f x) = start x ∧ len' (f x) = len x) :
    Tiles start' len' a (xs.map f) e := by
  induction xs generalizing a with
  | nil => exact h
  | cons x xs ih =>
    obtain ⟨hs, hl⟩ := hf x List.mem_cons_self
    refine ⟨hs.trans h.1, ?_⟩
    rw [hl]
    exact ih h.2 fun y hy => hf y (List.mem_cons_of_mem x hy)

end Tiles

end Tc8Harness.Tiling
