import Tc8Harness.Runner.TestRunner

/-!
# What each step of the runner changes

The frame conditions of the runner. `SameRun` says that the machine, its trace, what it was handed and
what is held stay as they are; every facility that runs the case's actions keeps it, whether or not one of
them throws. `Drove` says what one call that is given the machine does. The rest is one lemma for each of
`replay`, `onItem` and `start`, read off those two.
-/

namespace Tc8Harness.Sce

namespace Runner

variable {κ μ S E A O : Type}

/-! ## Exceptions -/

section Thrown

variable {f g : Runner κ μ S E A O → Runner κ μ S E A O} {r : Runner κ μ S E A O}

theorem andThen_of_thrown (h : r.thrown = true) : r.andThen f = r := if_pos h

theorem andThen_of_not_thrown (h : r.thrown = false) : r.andThen f = f r :=
  if_neg (by rw [h]; exact Bool.false_ne_true)

/-- A statement that was passed without an exception was reached without one. -/
theorem not_thrown_of_andThen (h : (r.andThen f).thrown = false) : r.thrown = false ∧ (f r).thrown = false := by
  cases hr : r.thrown with
  | true =>
    rw [andThen_of_thrown hr, hr] at h
    cases h
  | false =>
    rw [andThen_of_not_thrown hr] at h
    exact ⟨rfl, h⟩

/-- A loop that was left without an exception was entered without one. -/
theorem not_thrown_of_foldl {α : Type} {step : α → Runner κ μ S E A O → Runner κ μ S E A O} {l : List α}
    (h : (l.foldl (fun r a => r.andThen (step a)) r).thrown = false) : r.thrown = false := by
  induction l generalizing r with
  | nil => exact h
  | cons a l ih => exact (not_thrown_of_andThen (ih h)).1

end Thrown

/-! ## Steps that leave the machine alone -/

/-- The machine and all that is recorded about it are unchanged; observers may have been adopted. -/
structure SameRun (r r' : Runner κ μ S E A O) : Prop where
  sm : r'.sm = r.sm
  trace : r'.trace = r.trace
  moves : r'.moves = r.moves
  notified : r'.notified = r.notified
  held : r'.held = r.held
  started : r'.started = r.started
  nextPcapFrameIdx : r'.nextPcapFrameIdx = r.nextPcapFrameIdx
  adopted : r.adopted.length ≤ r'.adopted.length

namespace SameRun

theorem refl (r : Runner κ μ S E A O) : SameRun r r :=
  ⟨rfl, rfl, rfl, rfl, rfl, rfl, rfl, Nat.le_refl _⟩

theorem trans {r₁ r₂ r₃ : Runner κ μ S E A O} (h₁ : SameRun r₁ r₂) (h₂ : SameRun r₂ r₃) :
    SameRun r₁ r₃ where
  sm := h₂.sm.trans h₁.sm
  trace := h₂.trace.trans h₁.trace
  moves := h₂.moves.trans h₁.moves
  notified := h₂.notified.trans h₁.notified
  held := h₂.held.trans h₁.held
  started := h₂.started.trans h₁.started
  nextPcapFrameIdx := h₂.nextPcapFrameIdx.trans h₁.nextPcapFrameIdx
  adopted := Nat.le_trans h₁.adopted h₂.adopted

/-- A loop of steps that leave the machine alone leaves it alone. -/
theorem foldl {α : Type} {f : Runner κ μ S E A O → α → Runner κ μ S E A O}
    (hf : ∀ r a, SameRun r (f r a)) (l : List α) (r : Runner κ μ S E A O) :
    SameRun r (l.foldl f r) := by
  induction l generalizing r with
  | nil => exact refl r
  | cons a l ih => exact (hf r a).trans (ih (f r a))

theorem andThen {f : Runner κ μ S E A O → Runner κ μ S E A O} (hf : ∀ r, SameRun r (f r))
    (r : Runner κ μ S E A O) : SameRun r (r.andThen f) := by
  unfold Runner.andThen
  split
  · exact refl r
  · exact hf r

end SameRun

variable (clock : Nat → Int)

theorem register_same (r : Runner κ μ S E A O) (reg : Registration E A O) :
    SameRun r (r.register clock reg) := by
  cases reg with
  | schedule delayUs action => exact ⟨rfl, rfl, rfl, rfl, rfl, rfl, rfl, Nat.le_refl _⟩
  | scheduleAfterStateEntry stateId action =>
    exact ⟨rfl, rfl, rfl, rfl, rfl, rfl, rfl, Nat.le_refl _⟩
  | reactToObservation name predicate boundUs action =>
    exact ⟨rfl, rfl, rfl, rfl, rfl, rfl, rfl, Nat.le_refl _⟩
  | adoptObservingService service =>
    exact ⟨rfl, rfl, rfl, rfl, rfl, rfl, rfl, by simp [register]⟩

theorem afterAction_same (r : Runner κ μ S E A O) (result : κ × List (Registration E A O)) :
    SameRun r (r.afterAction clock result) :=
  have hcaptured : SameRun r { r with captured := result.1 } :=
    ⟨rfl, rfl, rfl, rfl, rfl, rfl, rfl, Nat.le_refl _⟩
  hcaptured.trans (SameRun.foldl (register_same clock) result.2 _)

/-- Registering throws nothing. -/
theorem afterAction_thrown (r : Runner κ μ S E A O) (result : κ × List (Registration E A O)) :
    (r.afterAction clock result).thrown = r.thrown := by
  obtain ⟨captured, regs⟩ := result
  unfold afterAction
  induction regs generalizing r captured with
  | nil => rfl
  | cons reg regs ih =>
    have hone : (register clock { r with captured := captured } reg).thrown = r.thrown := by
      cases reg <;> rfl
    exact (ih (register clock { r with captured := captured } reg) _).trans hone

section

variable (case : Case κ μ S E A O)

/-- So do the actions of stimulus steps and of state entries. -/
theorem foldl_perform_thrown {α : Type} (action : α → A) (l : List α) (r : Runner κ μ S E A O) :
    (l.foldl (fun r a => r.afterAction clock (case.perform (action a) r.captured)) r).thrown = r.thrown := by
  induction l generalizing r with
  | nil => rfl
  | cons a l ih => exact (ih _).trans (afterAction_thrown clock r _)

theorem drainStateEntryObservers_thrown (r : Runner κ μ S E A O) :
    (r.drainStateEntryObservers case clock).thrown = r.thrown := by
  unfold drainStateEntryObservers
  split
  · rfl
  · dsimp only
    split
    · rfl
    · exact foldl_perform_thrown clock case StateEntryObserver.action _ _

theorem act_same (ev : E) (p : Pending E A) (r : Runner κ μ S E A O) :
    SameRun r (r.act case clock ev p) :=
  have hacted := afterAction_same clock r _
  ⟨hacted.sm, hacted.trace, hacted.moves, hacted.notified, hacted.held, hacted.started,
    hacted.nextPcapFrameIdx, hacted.adopted⟩

theorem reactionsOnFrame_same (ev : E) (r : Runner κ μ S E A O) :
    SameRun r (r.reactionsOnFrame case clock ev) := by
  unfold reactionsOnFrame
  split
  · exact SameRun.refl r
  · dsimp only
    split
    · exact ⟨rfl, rfl, rfl, rfl, rfl, rfl, rfl, Nat.le_refl _⟩
    · refine SameRun.trans ?_ (SameRun.foldl (fun r p => SameRun.andThen (act_same clock case ev p) r) _ _)
      exact ⟨rfl, rfl, rfl, rfl, rfl, rfl, rfl, Nat.le_refl _⟩

theorem reactionsExpire_same (r : Runner κ μ S E A O) :
    SameRun r (r.reactionsExpire clock) := by
  unfold reactionsExpire
  split
  · exact SameRun.refl r
  · exact ⟨rfl, rfl, rfl, rfl, rfl, rfl, rfl, Nat.le_refl _⟩

theorem drainDueStimulus_same (r : Runner κ μ S E A O) :
    SameRun r (r.drainDueStimulus case clock) := by
  unfold drainDueStimulus
  split
  · exact SameRun.refl r
  · refine SameRun.trans ?_ (SameRun.foldl (fun r p => afterAction_same clock r _) _ _)
    exact ⟨rfl, rfl, rfl, rfl, rfl, rfl, rfl, Nat.le_refl _⟩

theorem drainStateEntryObservers_same (r : Runner κ μ S E A O) :
    SameRun r (r.drainStateEntryObservers case clock) := by
  unfold drainStateEntryObservers
  split
  · exact SameRun.refl r
  · dsimp only
    split
    · exact SameRun.refl r
    · refine SameRun.trans ?_ (SameRun.foldl (fun r p => afterAction_same clock r _) _ _)
      exact ⟨rfl, rfl, rfl, rfl, rfl, rfl, rfl, Nat.le_refl _⟩

/-! ## Calls that are given the machine -/

/-- One call that was given the machine, with the slot at `idx`: it is recorded as a move, and as a
step of the trace exactly when it returned and the state changed. -/
structure Drove (cause : Cause E) (idx : Int) (threw : Bool) (r r' : Runner κ μ S E A O) : Prop where
  moves : r'.moves = r.moves ++ [⟨cause, idx, r.finalState case, r'.finalState case, threw⟩]
  kept : threw = true ∨ r.finalState case = r'.finalState case → r'.trace = r.trace
  recorded : threw = false → r.finalState case ≠ r'.finalState case → ∃ step : TransitionStep,
    r'.trace = r.trace ++ [step] ∧ step.stepIdx = r.trace.length ∧
      step.fromStateName = case.getStateName (r.finalState case) ∧
      step.toStateName = case.getStateName (r'.finalState case) ∧ step.pcapFrameIdx = idx
  notified : r'.notified = r.notified
  held : r'.held = r.held
  started : r'.started = r.started
  nextPcapFrameIdx : r'.nextPcapFrameIdx = r.nextPcapFrameIdx
  adopted : r.adopted.length ≤ r'.adopted.length

theorem drive_drove [DecidableEq S] (cause : Cause E) (call : κ → μ → Called κ μ) (eventName : String)
    (idx : Int) (r : Runner κ μ S E A O) :
    Drove case cause idx (call r.captured r.sm).threw r (r.drive case clock cause call eventName idx) := by
  unfold drive
  rcases call r.captured r.sm with ⟨captured, sm, threw⟩
  dsimp only
  split
  case isTrue hrecords =>
    obtain ⟨hreturned, hne⟩ := hrecords
    exact
      { moves := rfl
        kept := fun hkept => hkept.elim (fun hthrew => by rw [hthrew] at hreturned; cases hreturned)
          fun heq => absurd heq hne
        recorded := fun _ _ => ⟨_, rfl, rfl, rfl, rfl, rfl⟩
        notified := rfl
        held := rfl
        started := rfl
        nextPcapFrameIdx := rfl
        adopted := Nat.le_refl _ }
  case isFalse hskips =>
    exact
      { moves := rfl
        kept := fun _ => rfl
        recorded := fun hreturned hne => absurd ⟨by rw [hreturned]; rfl, hne⟩ hskips
        notified := rfl
        held := rfl
        started := rfl
        nextPcapFrameIdx := rfl
        adopted := Nat.le_refl _ }

theorem drive_thrown [DecidableEq S] (cause : Cause E) (call : κ → μ → Called κ μ) (eventName : String)
    (idx : Int) (r : Runner κ μ S E A O) :
    (r.drive case clock cause call eventName idx).thrown = (call r.captured r.sm).threw := by
  unfold drive
  dsimp only
  split <;> rfl

/-- A step that leaves the machine alone may follow. -/
theorem Drove.andSame {cause : Cause E} {idx : Int} {threw : Bool} {r r₁ r₂ : Runner κ μ S E A O}
    (h : Drove case cause idx threw r r₁) (hsame : SameRun r₁ r₂) : Drove case cause idx threw r r₂ := by
  have hstate : r₂.finalState case = r₁.finalState case := congrArg case.getCurrentState hsame.sm
  exact
    { moves := by rw [hsame.moves, hstate]; exact h.moves
      kept := by rw [hstate, hsame.trace]; exact h.kept
      recorded := by rw [hstate, hsame.trace]; exact h.recorded
      notified := hsame.notified.trans h.notified
      held := hsame.held.trans h.held
      started := hsame.started.trans h.started
      nextPcapFrameIdx := hsame.nextPcapFrameIdx.trans h.nextPcapFrameIdx
      adopted := Nat.le_trans h.adopted hsame.adopted }

/-- A step that leaves the machine alone may come before. -/
theorem SameRun.andDrove {cause : Cause E} {idx : Int} {threw : Bool} {r r₁ r₂ : Runner κ μ S E A O}
    (hsame : SameRun r r₁) (h : Drove case cause idx threw r₁ r₂) : Drove case cause idx threw r r₂ := by
  have hstate : r₁.finalState case = r.finalState case := congrArg case.getCurrentState hsame.sm
  exact
    { moves := by rw [← hsame.moves, ← hstate]; exact h.moves
      kept := by rw [← hstate, ← hsame.trace]; exact h.kept
      recorded := by rw [← hstate, ← hsame.trace]; exact h.recorded
      notified := h.notified.trans hsame.notified
      held := h.held.trans hsame.held
      started := h.started.trans hsame.started
      nextPcapFrameIdx := h.nextPcapFrameIdx.trans hsame.nextPcapFrameIdx
      adopted := Nat.le_trans hsame.adopted h.adopted }

variable [DecidableEq S]

/-! ## Items -/

/-- The case's machine is called on the item: a marker needs the case's hook. -/
def reachesMachine : Item E → Bool
  | .event _ => true
  | .marker _ => case.onStimulusApplied.isSome

/-- The machine's share of an item: what the live path and the replay have in common. -/
def handItem (i : Item E) (r : Runner κ μ S E A O) : Runner κ μ S E A O :=
  match i with
  | .event ev => (r.dispatchToMachine case clock ev).andThen (reactionsOnFrame case clock ev)
  | .marker name => r.applyStimulusMarker case clock name

theorem handItem_drove {i : Item E} (hi : reachesMachine case i = true) (r : Runner κ μ S E A O) :
    ∃ threw, Drove case (.item i) r.nextPcapFrameIdx threw r (r.handItem clock case i) := by
  cases i with
  | event ev =>
    exact ⟨_, (drive_drove clock case _ _ _ _ r).andSame case
      (SameRun.andThen (reactionsOnFrame_same clock case ev) _)⟩
  | marker name =>
    obtain ⟨hook, hhook⟩ := Option.isSome_iff_exists.1 hi
    have happly : r.handItem clock case (.marker name) = r.drive case clock (.item (.marker name))
        (fun captured sm => hook captured sm name) "stimulus_applied" r.nextPcapFrameIdx := by
      simp only [handItem, applyStimulusMarker, hhook]
    rw [happly]
    exact ⟨_, drive_drove clock case _ _ _ _ r⟩

theorem handItem_of_not_reaches {i : Item E} (hi : reachesMachine case i = false)
    (r : Runner κ μ S E A O) : r.handItem clock case i = r := by
  cases i with
  | event ev => cases hi
  | marker name =>
    have hnone : case.onStimulusApplied = none := Option.not_isSome_iff_eq_none.1 (by
      rw [show case.onStimulusApplied.isSome = false from hi]
      exact Bool.false_ne_true)
    simp only [handItem, applyStimulusMarker, hnone]

theorem replay_eq (r : Runner κ μ S E A O) (h : Held E) :
    r.replay case clock h = (r.setNextPcapFrameIdx h.pcapFrameIdx).handItem clock case h.item := by
  rcases h with ⟨ev | name, idx⟩ <;> rfl

/-- The observers' share of an item. -/
def fanOutItem (i : Item E) (r : Runner κ μ S E A O) : Runner κ μ S E A O :=
  match i with
  | .event ev => r.fanOutCapturedFrame case ev
  | .marker _ => r

theorem onItem_started {r : Runner κ μ S E A O} (hr : r.started = true) (i : Item E) :
    r.onItem case clock i = (r.handItem clock case i).andThen (fanOutItem case i) := by
  cases i with
  | event ev => simp only [onItem, onCaptured, hr]; rfl
  | marker name =>
    simp only [onItem, onStimulusApplied, hr]
    exact (ite_self _).symm

theorem onItem_not_started {r : Runner κ μ S E A O} (hr : r.started = false) (i : Item E) :
    r.onItem case clock i = (r.hold i).fanOutItem case i := by
  cases i with
  | event ev => simp only [onItem, onCaptured, hr]; rfl
  | marker name => simp only [onItem, onStimulusApplied, hr]; rfl

theorem pumpTimers_drove (r : Runner κ μ S E A O) :
    Drove case .tick (-1) false r (r.pumpTimers case clock) :=
  drive_drove clock case .tick
    (fun captured sm => ⟨(case.smTick captured sm).1, (case.smTick captured sm).2, false⟩)
    "deadline_exceeded" (-1) r

theorem tick_drove (r : Runner κ μ S E A O) : Drove case .tick (-1) false r (r.tick case clock) := by
  have hbefore := (drainDueStimulus_same clock case r).trans (reactionsExpire_same clock _)
  have hdrove := pumpTimers_drove clock case ((r.drainDueStimulus case clock).reactionsExpire clock)
  exact (hbefore.andDrove case hdrove).andSame case (drainStateEntryObservers_same clock case _)

theorem tick_thrown (r : Runner κ μ S E A O) : (r.tick case clock).thrown = false :=
  (drainStateEntryObservers_thrown clock case _).trans (drive_thrown clock case .tick _ _ _ _)

/-- The settled hook is not called, or it is one call that is given the machine. -/
theorem settleStimulus_cases (r : Runner κ μ S E A O) :
    SameRun r (r.settleStimulus case clock) ∨
      ∃ threw, Drove case .settled (-1) threw r (r.settleStimulus case clock) := by
  unfold settleStimulus
  rcases case.onStimulusSettled with _ | hook
  · exact .inl (SameRun.refl r)
  · dsimp only
    split
    · exact .inl (SameRun.refl r)
    · have hdrove := drive_drove clock case .settled hook "stimulus_settled" (-1) r
      refine .inr ⟨(hook r.captured r.sm).threw, ?_⟩
      split
      · exact hdrove.andSame case ⟨rfl, rfl, rfl, rfl, rfl, rfl, rfl, Nat.le_refl _⟩
      · exact hdrove

end

end Runner

end Tc8Harness.Sce
