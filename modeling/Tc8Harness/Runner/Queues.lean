import Tc8Harness.Runner.Holding
import Tc8Harness.Lib.OneShot

/-!
# The runner's queues

The runner keeps three lists of one-shot registrations: scheduled stimulus, state-entry observers and
reactions. Each is drained at its own place, and everything else only appends to it. `Grows` says so for
a step that drains none of them; the drains are stated as the step that takes the due entries out
followed by one that grows.
-/

namespace Tc8Harness.Sce

/-- The reaction's predicate returns, and holds of the frame. -/
def Pending.satisfiedBy {E A : Type} (p : Pending E A) (ev : E) : Bool := p.predicate ev == some true

namespace Runner

variable {κ μ S E A O : Type}

/-- Every queue was only appended to, and the remembered state is as it was. -/
structure Grows (r r' : Runner κ μ S E A O) : Prop where
  stimQueue : r.stimQueue <+: r'.stimQueue
  stateEntryObservers : r.stateEntryObservers <+: r'.stateEntryObservers
  reactions : r.reactions <+: r'.reactions
  lastStateId : r'.lastStateId = r.lastStateId

namespace Grows

theorem of_eq {r r' : Runner κ μ S E A O} (hstim : r'.stimQueue = r.stimQueue)
    (hentry : r'.stateEntryObservers = r.stateEntryObservers) (hreact : r'.reactions = r.reactions)
    (hlast : r'.lastStateId = r.lastStateId) : Grows r r' :=
  ⟨hstim ▸ List.prefix_refl _, hentry ▸ List.prefix_refl _, hreact ▸ List.prefix_refl _, hlast⟩

theorem refl (r : Runner κ μ S E A O) : Grows r r := of_eq rfl rfl rfl rfl

theorem trans {r₁ r₂ r₃ : Runner κ μ S E A O} (h₁ : Grows r₁ r₂) (h₂ : Grows r₂ r₃) : Grows r₁ r₃ where
  stimQueue := h₁.stimQueue.trans h₂.stimQueue
  stateEntryObservers := h₁.stateEntryObservers.trans h₂.stateEntryObservers
  reactions := h₁.reactions.trans h₂.reactions
  lastStateId := h₂.lastStateId.trans h₁.lastStateId

theorem from_eq {r r₁ r' : Runner κ μ S E A O} (h : Grows r₁ r') (hstim : r₁.stimQueue = r.stimQueue)
    (hentry : r₁.stateEntryObservers = r.stateEntryObservers) (hreact : r₁.reactions = r.reactions)
    (hlast : r₁.lastStateId = r.lastStateId) : Grows r r' :=
  (of_eq hstim hentry hreact hlast).trans h

theorem foldl {α : Type} {f : Runner κ μ S E A O → α → Runner κ μ S E A O}
    (hf : ∀ r a, Grows r (f r a)) (l : List α) (r : Runner κ μ S E A O) : Grows r (l.foldl f r) := by
  induction l generalizing r with
  | nil => exact refl r
  | cons a l ih => exact (hf r a).trans (ih (f r a))

theorem andThen {f : Runner κ μ S E A O → Runner κ μ S E A O} (hf : ∀ r, Grows r (f r))
    (r : Runner κ μ S E A O) : Grows r (r.andThen f) := by
  unfold Runner.andThen
  split
  · exact refl r
  · exact hf r

end Grows

variable (clock : Nat → Int)

theorem register_grows (r : Runner κ μ S E A O) (reg : Registration E A O) :
    Grows r (r.register clock reg) := by
  cases reg with
  | schedule delayUs action =>
    exact ⟨List.prefix_append _ _, List.prefix_refl _, List.prefix_refl _, rfl⟩
  | scheduleAfterStateEntry stateId action =>
    exact ⟨List.prefix_refl _, List.prefix_append _ _, List.prefix_refl _, rfl⟩
  | reactToObservation name predicate boundUs action =>
    exact ⟨List.prefix_refl _, List.prefix_refl _, List.prefix_append _ _, rfl⟩
  | adoptObservingService service => exact Grows.of_eq rfl rfl rfl rfl

theorem afterAction_grows (r : Runner κ μ S E A O) (result : κ × List (Registration E A O)) :
    Grows r (r.afterAction clock result) :=
  (Grows.of_eq rfl rfl rfl rfl : Grows r { r with captured := result.1 }).trans
    (Grows.foldl (register_grows clock) result.2 _)

theorem aside_grows (r : Runner κ μ S E A O) (op : SideOp κ E A O) : Grows r (r.aside clock op) := by
  cases op with
  | register reg => exact register_grows clock r reg
  | captured g => exact Grows.of_eq rfl rfl rfl rfl
  | stimulusReturned tsUs => exact Grows.of_eq rfl rfl rfl rfl

section

variable (case : Case κ μ S E A O)

theorem fanOutItem_grows (i : Item E) (r : Runner κ μ S E A O) : Grows r (r.fanOutItem case i) := by
  cases i with
  | event ev => exact Grows.of_eq rfl rfl rfl rfl
  | marker name => exact Grows.refl r

/-! ## What each drain leaves -/

/-- The actions of scheduled stimulus and of state-entry observers, one after the other. -/
def performAll (actions : List A) (r : Runner κ μ S E A O) : Runner κ μ S E A O :=
  actions.foldl (fun r a => r.afterAction clock (case.perform a r.captured)) r

/-- The reactions the frame `ev` has taken out act, one after the other. -/
def reactAll (ev : E) (due : List (Pending E A)) (r : Runner κ μ S E A O) : Runner κ μ S E A O :=
  due.foldl (fun r p => r.andThen (act case clock ev p)) r

theorem performAll_grows (actions : List A) (r : Runner κ μ S E A O) :
    Grows r (performAll clock case actions r) :=
  Grows.foldl (fun r _ => afterAction_grows clock r _) actions r

theorem act_grows (ev : E) (p : Pending E A) (r : Runner κ μ S E A O) : Grows r (r.act case clock ev p) :=
  have h := afterAction_grows clock r _
  ⟨h.stimQueue, h.stateEntryObservers, h.reactions, h.lastStateId⟩

theorem reactAll_grows (ev : E) (due : List (Pending E A)) (r : Runner κ μ S E A O) :
    Grows r (reactAll clock case ev due r) :=
  Grows.foldl (fun r p => Grows.andThen (act_grows clock case ev p) r) due r

theorem drainDueStimulus_eq (r : Runner κ μ S E A O) (h : r.stimQueue ≠ []) :
    r.drainDueStimulus case clock =
      performAll clock case
        ((r.stimQueue.filter fun s => decide (s.fireAt ≤ clock r.clockReads)).map (·.action))
        { r with
          clockReads := r.clockReads + 1
          stimQueue := r.stimQueue.filter fun s => !decide (s.fireAt ≤ clock r.clockReads) } := by
  rw [drainDueStimulus, if_neg (by simpa using h), performAll, List.foldl_map]
  rfl

/-- A scan in which no predicate throws takes out what the frame satisfies. -/
theorem scanReactions_eq {ev : E} {ps : List (Pending E A)} (h : (scanReactions ev ps).threw = false) :
    (scanReactions ev ps).due = ps.filter (fun p => p.satisfiedBy ev) ∧
      (scanReactions ev ps).rest = ps.filter fun p => !p.satisfiedBy ev := by
  induction ps with
  | nil => exact ⟨rfl, rfl⟩
  | cons p ps ih =>
    unfold scanReactions at h ⊢
    rcases hp : p.predicate ev with _ | hit
    · rw [hp] at h
      cases h
    · rw [hp] at h
      cases hit with
      | true =>
        obtain ⟨hdue, hrest⟩ := ih h
        simp [Pending.satisfiedBy, hp, hdue, hrest]
      | false =>
        obtain ⟨hdue, hrest⟩ := ih h
        simp [Pending.satisfiedBy, hp, hdue, hrest]

theorem reactionsOnFrame_eq (ev : E) (r : Runner κ μ S E A O) (h : r.reactions ≠ []) :
    r.reactionsOnFrame case clock ev =
      if (scanReactions ev r.reactions).threw then
        { r with reactions := (scanReactions ev r.reactions).rest, thrown := true }
      else
        reactAll clock case ev (scanReactions ev r.reactions).due
          { r with
            clockReads := r.clockReads + 1
            reactions := (scanReactions ev r.reactions).rest } := by
  rw [reactionsOnFrame, if_neg (by simpa using h)]
  rfl

theorem drainDueStimulus_grows (r : Runner κ μ S E A O) :
    Grows { r with stimQueue := r.stimQueue.filter fun s => !decide (s.fireAt ≤ clock r.clockReads) }
      (r.drainDueStimulus case clock) := by
  rcases eq_or_ne r.stimQueue [] with h | h
  · rw [drainDueStimulus, if_pos (by simp [h])]
    exact Grows.of_eq (by simp [h]) rfl rfl rfl
  · rw [drainDueStimulus_eq clock case r h]
    exact Grows.from_eq (performAll_grows clock case _ _) rfl rfl rfl rfl

theorem reactionsOnFrame_grows (ev : E) (r : Runner κ μ S E A O) :
    Grows { r with reactions := (scanReactions ev r.reactions).rest }
      (r.reactionsOnFrame case clock ev) := by
  rcases eq_or_ne r.reactions [] with h | h
  · rw [reactionsOnFrame, if_pos (by simp [h])]
    exact Grows.of_eq rfl rfl (by simp [h, scanReactions]) rfl
  · rw [reactionsOnFrame_eq clock case ev r h]
    split
    · exact Grows.of_eq rfl rfl rfl rfl
    · exact Grows.from_eq (reactAll_grows clock case ev _ _) rfl rfl rfl rfl

theorem reactionsExpire_reactions (r : Runner κ μ S E A O) :
    (r.reactionsExpire clock).reactions =
      r.reactions.filter fun p => !decide (clock r.clockReads ≥ p.deadline) := by
  unfold reactionsExpire
  split
  case isTrue hempty => simp [List.isEmpty_iff.1 hempty]
  case isFalse => rfl

/-- The state-entry drain in one form: what is due runs, after the rest and the remembered state are set. -/
theorem drainStateEntryObservers_eq (r : Runner κ μ S E A O) :
    r.drainStateEntryObservers case clock =
      let now := case.stateId (r.finalState case)
      performAll clock case
        ((r.stateEntryObservers.filter fun o => o.stateId == now && now != r.lastStateId).map (·.action))
        { r with
          lastStateId := if r.stateEntryObservers.isEmpty then r.lastStateId else now
          stateEntryObservers :=
            r.stateEntryObservers.filter fun o => !(o.stateId == now && now != r.lastStateId) } := by
  dsimp only
  unfold drainStateEntryObservers
  split
  case isTrue hempty =>
    have hnil := List.isEmpty_iff.1 hempty
    have hsame : r = { r with stateEntryObservers := [] } := by rw [← hnil]
    simpa [hnil, performAll] using hsame
  case isFalse hne =>
    dsimp only
    split
    case isTrue hsame =>
      have hrest : r = { r with lastStateId := case.stateId (r.finalState case) } := by rw [hsame]
      simpa [← hsame, performAll, hne] using hrest
    case isFalse hchanged =>
      have hbne : (case.stateId (r.finalState case) != r.lastStateId) = true := bne_iff_ne.2 hchanged
      simp [hbne, performAll, List.foldl_map]

/-- The other two queues grow. -/
theorem drainStateEntryObservers_others (r : Runner κ μ S E A O) :
    r.stimQueue <+: (r.drainStateEntryObservers case clock).stimQueue ∧
      r.reactions <+: (r.drainStateEntryObservers case clock).reactions := by
  have hform : ∃ actions, ∃ r₁ : Runner κ μ S E A O,
      r.drainStateEntryObservers case clock = performAll clock case actions r₁ ∧
      r₁.stimQueue = r.stimQueue ∧ r₁.reactions = r.reactions :=
    ⟨_, _, drainStateEntryObservers_eq clock case r, rfl, rfl⟩
  obtain ⟨actions, r₁, heq, hstim, hreact⟩ := hform
  have hgrows := performAll_grows clock case actions r₁
  rw [heq, ← hstim, ← hreact]
  exact ⟨hgrows.stimQueue, hgrows.reactions⟩

/-! ## Two of the queues -/

/-- Scheduled stimulus and state-entry observers were only appended to. -/
structure KeepsSteps (r r' : Runner κ μ S E A O) : Prop where
  stimQueue : r.stimQueue <+: r'.stimQueue
  stateEntryObservers : r.stateEntryObservers <+: r'.stateEntryObservers
  lastStateId : r'.lastStateId = r.lastStateId

theorem Grows.keepsSteps {r r' : Runner κ μ S E A O} (h : Grows r r') : KeepsSteps r r' :=
  ⟨h.stimQueue, h.stateEntryObservers, h.lastStateId⟩

namespace KeepsSteps

theorem refl (r : Runner κ μ S E A O) : KeepsSteps r r := (Grows.refl r).keepsSteps

theorem trans {r₁ r₂ r₃ : Runner κ μ S E A O} (h₁ : KeepsSteps r₁ r₂) (h₂ : KeepsSteps r₂ r₃) :
    KeepsSteps r₁ r₃ where
  stimQueue := h₁.stimQueue.trans h₂.stimQueue
  stateEntryObservers := h₁.stateEntryObservers.trans h₂.stateEntryObservers
  lastStateId := h₂.lastStateId.trans h₁.lastStateId

theorem foldl {α : Type} {f : Runner κ μ S E A O → α → Runner κ μ S E A O}
    (hf : ∀ r a, KeepsSteps r (f r a)) (l : List α) (r : Runner κ μ S E A O) :
    KeepsSteps r (l.foldl f r) := by
  induction l generalizing r with
  | nil => exact refl r
  | cons a l ih => exact (hf r a).trans (ih (f r a))

theorem andThen {f : Runner κ μ S E A O → Runner κ μ S E A O} {r r' : Runner κ μ S E A O}
    (h : KeepsSteps r r') (hf : KeepsSteps r' (f r')) : KeepsSteps r (r'.andThen f) := by
  unfold Runner.andThen
  split
  · exact h
  · exact h.trans hf

end KeepsSteps

theorem reactionsOnFrame_keepsSteps (ev : E) (r : Runner κ μ S E A O) :
    KeepsSteps r (r.reactionsOnFrame case clock ev) :=
  have h := reactionsOnFrame_grows clock case ev r
  ⟨h.stimQueue, h.stateEntryObservers, h.lastStateId⟩

theorem reactionsExpire_keepsSteps (r : Runner κ μ S E A O) :
    KeepsSteps r (r.reactionsExpire clock) := by
  unfold reactionsExpire
  split
  · exact KeepsSteps.refl r
  · exact ⟨List.prefix_refl _, List.prefix_refl _, rfl⟩

/-! ## Steps that drain nothing -/

variable [DecidableEq S]

theorem drive_grows (cause : Cause E) (call : κ → μ → Called κ μ) (eventName : String) (idx : Int)
    (r : Runner κ μ S E A O) : Grows r (r.drive case clock cause call eventName idx) := by
  unfold drive
  dsimp only
  split
  · exact Grows.of_eq rfl rfl rfl rfl
  · exact Grows.of_eq rfl rfl rfl rfl

theorem pumpTimers_grows (r : Runner κ μ S E A O) : Grows r (r.pumpTimers case clock) :=
  drive_grows clock case _ _ _ _ r

theorem applyStimulusMarker_grows (name : String) (r : Runner κ μ S E A O) :
    Grows r (r.applyStimulusMarker case clock name) := by
  unfold applyStimulusMarker
  split
  · exact Grows.refl r
  · exact drive_grows clock case _ _ _ _ r

theorem settleStimulus_grows (r : Runner κ μ S E A O) : Grows r (r.settleStimulus case clock) := by
  unfold settleStimulus
  rcases case.onStimulusSettled with _ | hook
  · exact Grows.refl r
  · dsimp only
    split
    · exact Grows.refl r
    · have hdrive := drive_grows clock case .settled hook "stimulus_settled" (-1) r
      split
      · exact hdrive.trans (Grows.of_eq rfl rfl rfl rfl)
      · exact hdrive

/-! ## Frames

A frame offers itself to the reactions and leaves the other two queues to grow. -/

theorem handItem_keepsSteps (r : Runner κ μ S E A O) (i : Item E) :
    KeepsSteps r (r.handItem clock case i) := by
  cases i with
  | event ev =>
    exact (drive_grows clock case _ _ _ _ r).keepsSteps.andThen
      (reactionsOnFrame_keepsSteps clock case ev _)
  | marker name => exact (applyStimulusMarker_grows clock case name r).keepsSteps

theorem onItem_keepsSteps (r : Runner κ μ S E A O) (i : Item E) :
    KeepsSteps r (r.onItem case clock i) := by
  cases hr : r.started with
  | true =>
    rw [onItem_started clock case hr i]
    exact (handItem_keepsSteps clock case r i).andThen (fanOutItem_grows case i _).keepsSteps
  | false =>
    rw [onItem_not_started clock case hr i]
    have hhold : KeepsSteps r (r.hold i) := ⟨List.prefix_refl _, List.prefix_refl _, rfl⟩
    exact hhold.trans (fanOutItem_grows case i (r.hold i)).keepsSteps

theorem deliver_keepsSteps (r : Runner κ μ S E A O) (d : Delivery κ E A O) :
    KeepsSteps r (r.deliver case clock d) := by
  cases d with
  | frame idx items =>
    have hslot : KeepsSteps r (r.setNextPcapFrameIdx idx) :=
      ⟨List.prefix_refl _, List.prefix_refl _, rfl⟩
    have hitems := hslot.trans (KeepsSteps.foldl
      (fun r i => (KeepsSteps.refl r).andThen (onItem_keepsSteps clock case r i)) items _)
    exact ⟨hitems.stimQueue, hitems.stateEntryObservers, hitems.lastStateId⟩
  | side op => exact (aside_grows clock r op).keepsSteps

theorem replay_keepsSteps (r : Runner κ μ S E A O) (h : Held E) :
    KeepsSteps r (r.replay case clock h) := by
  have hslot : KeepsSteps r (r.setNextPcapFrameIdx h.pcapFrameIdx) :=
    ⟨List.prefix_refl _, List.prefix_refl _, rfl⟩
  rw [replay_eq]
  exact hslot.trans (handItem_keepsSteps clock case _ h.item)

/-- `start` after the machine's initialisation. -/
theorem start_keepsSteps (r : Runner κ μ S E A O) (realtimeNowUs : Int) :
    KeepsSteps (r.initialized case clock realtimeNowUs) (r.start case clock realtimeNowUs) := by
  have hreplay := KeepsSteps.foldl
    (fun r h => (KeepsSteps.refl r).andThen (replay_keepsSteps clock case r h))
    (r.initialized case clock realtimeNowUs).held (r.initialized case clock realtimeNowUs)
  have hrelease := hreplay.andThen (f := fun r => { r with held := [] })
    ⟨List.prefix_refl _, List.prefix_refl _, rfl⟩
  have hslot := hrelease.andThen (f := setNextPcapFrameIdx (-1)) ⟨List.prefix_refl _, List.prefix_refl _, rfl⟩
  exact hslot.andThen (settleStimulus_grows clock case _).keepsSteps

end

end Runner

end Tc8Harness.Sce
