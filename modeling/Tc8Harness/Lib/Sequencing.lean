import Mathlib

/-!
# Numbered messages over a lossy channel

A sender turns inputs into messages one by one, and a receiver gives a verdict on each message that
arrives. `runAll_outputs` says what a sender's messages are by their number. A receiver that judges a
message by its distance from the last one gives, over any messages that arrive in order, the verdicts
the distances give (`runAll_eq_verdicts`).
-/

namespace Tc8Harness.Sequencing

variable {σ α β ε ω : Type*}

/-- The outputs of a fallible machine over its inputs. -/
def runAll (f : σ → α → Except ε (β × σ)) : σ → List α → Except ε (List β)
  | _, [] => .ok []
  | s, a :: as =>
    match f s a with
    | .error e => .error e
    | .ok (b, s') => (runAll f s' as).map (b :: ·)

theorem runAll_cons {f : σ → α → Except ε (β × σ)} {s s' : σ} {a : α} {b : β} {as : List α}
    {bs : List β} (hhead : f s a = .ok (b, s')) (htail : runAll f s' as = .ok bs) :
    runAll f s (a :: as) = .ok (b :: bs) := by
  simp only [runAll, hhead, htail]
  rfl

/-! ## The sender -/

/-- A machine that keeps an invariant numbered by its steps outputs what each step outputs. -/
theorem runAll_outputs {f : σ → α → Except ε (β × σ)} (Inv : Nat → σ → Prop) (Ok : α → Prop)
    (Out : Nat → β → Prop)
    (hstep : ∀ n s a, Inv n s → Ok a → ∃ b s', f s a = .ok (b, s') ∧ Inv (n + 1) s' ∧ Out n b)
    {n : Nat} {s : σ} (h : Inv n s) {as : List α} (hok : ∀ a ∈ as, Ok a) :
    ∃ bs, runAll f s as = .ok bs ∧ bs.length = as.length ∧
      ∀ i b, bs[i]? = some b → Out (n + i) b := by
  induction as generalizing n s with
  | nil => exact ⟨[], rfl, rfl, by simp⟩
  | cons a as ih =>
    obtain ⟨hhead, htail⟩ := List.forall_mem_cons.1 hok
    obtain ⟨b, s', hb, hinv, hout⟩ := hstep n s a h hhead
    obtain ⟨bs, hbs, hlength, hall⟩ := ih hinv htail
    refine ⟨b :: bs, runAll_cons hb hbs, by rw [List.length_cons, List.length_cons, hlength], ?_⟩
    intro i c hc
    cases i with
    | zero =>
      obtain rfl : b = c := Option.some.inj hc
      exact hout
    | succ i =>
      have hrest := hall i c hc
      rw [Nat.add_right_comm] at hrest
      exact hrest

/-! ## The receiver -/

/-- The verdicts on the messages `is` after message `last`, each by its distance from the one
before. -/
def gapVerdicts (judge : Nat → ω) : Nat → List Nat → List ω
  | _, [] => []
  | last, i :: is => judge (i - last) :: gapVerdicts judge i is

def verdicts (first : ω) (judge : Nat → ω) : List Nat → List ω
  | [] => []
  | i :: is => first :: gapVerdicts judge i is

section Receiver

variable {check : σ → α → Except ε (ω × σ)} {judge : Nat → ω} {message : Nat → α} {Sent : Nat → Prop}
  {At : Nat → σ → Prop}
  (hlater : ∀ i j s, At i s → Sent j → i ≤ j →
    ∃ s', check s (message j) = .ok (judge (j - i), s') ∧ At j s')

include hlater

theorem runAll_eq_gapVerdicts {is : List Nat} {last : Nat} {s : σ} (h : At last s)
    (hsent : ∀ i ∈ is, Sent i) (hsorted : (last :: is).Pairwise (· ≤ ·)) :
    runAll check s (is.map message) = .ok (gapVerdicts judge last is) := by
  induction is generalizing last s with
  | nil => rfl
  | cons i is ih =>
    obtain ⟨hfirst, hrest⟩ := List.pairwise_cons.1 hsorted
    obtain ⟨hsent', hsents⟩ := List.forall_mem_cons.1 hsent
    obtain ⟨s', hcheck, hat⟩ := hlater last i s h hsent' (hfirst i List.mem_cons_self)
    exact runAll_cons hcheck (ih hat hsents hrest)

/-- **Verdicts by distance.** -/
theorem runAll_eq_verdicts {first : ω} {s : σ}
    (hfresh : ∀ i, Sent i → ∃ s', check s (message i) = .ok (first, s') ∧ At i s') {is : List Nat}
    (hsent : ∀ i ∈ is, Sent i) (hsorted : is.Pairwise (· ≤ ·)) :
    runAll check s (is.map message) = .ok (verdicts first judge is) := by
  cases is with
  | nil => rfl
  | cons i is =>
    obtain ⟨hsent', hsents⟩ := List.forall_mem_cons.1 hsent
    obtain ⟨s', hcheck, hat⟩ := hfresh i hsent'
    exact runAll_cons hcheck (runAll_eq_gapVerdicts hlater hat hsents hsorted)

end Receiver

end Tc8Harness.Sequencing
