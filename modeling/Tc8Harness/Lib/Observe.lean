import Mathlib

/-!
# Runs seen by an observer

A machine takes inputs one by one, and an observer sees a list of values at each of them.
`observe_filter` is the rule for isolation results: where the inputs that are not kept show the
observer nothing and leave a relation with a second machine intact, the observer cannot tell the
whole run from the second machine's run on the kept inputs alone.
-/

namespace Tc8Harness.Observe

variable {σ τ ι ω : Type*}

/-- What the observer sees over a run from `s`. -/
def observe (step : σ → ι → σ) (obs : σ → ι → List ω) : σ → List ι → List ω
  | _, [] => []
  | s, i :: is => obs s i ++ observe step obs (step s i) is

/-- Each input of the run meets the condition in the state it finds. -/
def Along (step : σ → ι → σ) (Ok : σ → ι → Prop) (s : σ) (is : List ι) : Prop :=
  ∀ before i after, is = before ++ i :: after → Ok (before.foldl step s) i

section Along

variable {step : σ → ι → σ} {Ok : σ → ι → Prop} {s : σ} {i : ι} {is : List ι}

theorem Along.head (h : Along step Ok s (i :: is)) : Ok s i := h [] i is rfl

theorem Along.tail (h : Along step Ok s (i :: is)) : Along step Ok (step s i) is :=
  fun before j after heq => h (i :: before) j after (by rw [heq]; rfl)

theorem along_nil : Along step Ok s [] := by
  intro before i after heq
  simp at heq

theorem Along.cons (hi : Ok s i) (h : Along step Ok (step s i) is) : Along step Ok s (i :: is) := by
  intro before j after heq
  cases before with
  | nil =>
    obtain ⟨rfl, -⟩ := List.cons.inj heq
    exact hi
  | cons i' before =>
    obtain ⟨rfl, htail⟩ := List.cons.inj heq
    exact h before j after htail

theorem along_cons : Along step Ok s (i :: is) ↔ Ok s i ∧ Along step Ok (step s i) is :=
  ⟨fun h => ⟨h.head, h.tail⟩, fun h => .cons h.1 h.2⟩

theorem Along.append {js : List ι} (h : Along step Ok s is)
    (hjs : Along step Ok (is.foldl step s) js) : Along step Ok s (is ++ js) := by
  induction is generalizing s with
  | nil => exact hjs
  | cons i is ih => exact .cons h.head (ih h.tail hjs)

theorem Along.left {js : List ι} (h : Along step Ok s (is ++ js)) : Along step Ok s is :=
  fun before i after heq => h before i (after ++ js) (by rw [heq]; simp)

theorem Along.right {js : List ι} (h : Along step Ok s (is ++ js)) : Along step Ok (is.foldl step s) js := by
  intro before i after heq
  have hwhole := h (is ++ before) i after (by rw [heq]; simp)
  rwa [List.foldl_append] at hwhole

theorem along_concat : Along step Ok s (is ++ [i]) ↔ Along step Ok s is ∧ Ok (is.foldl step s) i := by
  constructor
  · intro h
    exact ⟨h.left, h.right.head⟩
  · rintro ⟨h, hi⟩
    exact h.append (.cons hi along_nil)

/-- Two conditions that are the same wherever an invariant holds are the same along a run from there. -/
theorem along_congr {Inv : σ → Prop} {Ok' : σ → ι → Prop} (hstep : ∀ s i, Inv s → Inv (step s i))
    (hiff : ∀ s i, Inv s → (Ok s i ↔ Ok' s i)) (h : Inv s) : Along step Ok s is ↔ Along step Ok' s is := by
  induction is generalizing s with
  | nil => exact iff_of_true along_nil along_nil
  | cons i is ih => rw [along_cons, along_cons, hiff s i h, ih (hstep s i h)]

instance decidableAlong [∀ s i, Decidable (Ok s i)] :
    (s : σ) → (is : List ι) → Decidable (Along step Ok s is)
  | _, [] => isTrue along_nil
  | s, i :: is =>
    have : Decidable (Along step Ok (step s i) is) := decidableAlong (step s i) is
    decidable_of_iff _ along_cons.symm

end Along

/-- **Runs alike.** A relation that two machines keep, and under which they show the same, makes their
runs on the same inputs look the same. -/
theorem observe_congr {step : σ → ι → σ} {step' : τ → ι → τ} {obs : σ → ι → List ω}
    {obs' : τ → ι → List ω} {R : σ → τ → Prop}
    (hstep : ∀ s t i, R s t → obs s i = obs' t i ∧ R (step s i) (step' t i)) {s : σ} {t : τ} (h : R s t)
    (is : List ι) : observe step obs s is = observe step' obs' t is := by
  induction is generalizing s t with
  | nil => rfl
  | cons i is ih =>
    obtain ⟨hobs, hR⟩ := hstep s t i h
    rw [observe, observe, hobs, ih hR]

section Filter

variable {step : σ → ι → σ} {step' : τ → ι → τ} {obs : σ → ι → List ω} {obs' : τ → ι → List ω}
  {Ok : σ → ι → Prop} {R : σ → τ → Prop} {keep : ι → Bool}

/-- **Isolation from a simulation.** Kept inputs show both machines' observers the same and keep the
relation; the others show nothing and keep it with the second machine standing still. -/
theorem observe_filter
    (hkeep : ∀ s t i, R s t → Ok s i → keep i = true →
      obs s i = obs' t i ∧ R (step s i) (step' t i))
    (hskip : ∀ s t i, R s t → Ok s i → keep i = false → obs s i = [] ∧ R (step s i) t)
    {s : σ} {t : τ} (h : R s t) {is : List ι} (hok : Along step Ok s is) :
    observe step obs s is = observe step' obs' t (is.filter keep) := by
  induction is generalizing s t with
  | nil => rfl
  | cons i is ih =>
    cases hk : keep i with
    | true =>
      obtain ⟨hobs, hR⟩ := hkeep s t i h hok.head hk
      rw [List.filter_cons_of_pos hk, observe, observe, hobs, ih hR hok.tail]
    | false =>
      obtain ⟨hobs, hR⟩ := hskip s t i h hok.head hk
      rw [List.filter_cons_of_neg (by simp [hk]), observe, hobs, List.nil_append,
        ih hR hok.tail]

end Filter

end Tc8Harness.Observe
