import Mathlib.Data.List.Basic
import Mathlib.Tactic.Basic

/-!
# The run's capture

`src/cli/commands/run_capture.cpp`: the one path by which a frame leaves a capture source, is
appended to the saved pcap under the next index and goes to the packet pipeline. A drain pass empties
the primary source and then, if there is one, the secondary. What libpcap does in a pass is its input
(`Dispatched`): the frames it hands to the callback, in order, and what it returns.

`handed_eq` says which frames a pass hands on; `handed_sorted_iff` says when they are in timestamp
order across the two sources.
-/

namespace Tc8Harness.Capture

/-- What `pcap_dispatch` returned: the number of frames, `-2` after a break, or `-1` with a text. -/
inductive DispatchCode where
  | count
  | breakLoop
  | error (text : String)
  deriving DecidableEq, Repr

/-- One call of `PcapSource::dispatch`: the frames its callback got and how it ended. -/
structure Dispatched (F : Type) where
  frames : List F
  code : DispatchCode := .count

inductive DrainStatus where
  | kOk
  | kStopped
  | kEndOfCapture
  | kError
  deriving DecidableEq, Repr

structure Drained where
  status : DrainStatus
  frames : Nat
  deriving DecidableEq, Repr

/-- What a pass meets: the stop flag, and each source's queue. -/
structure Pass (F : Type) where
  stopRequested : Bool := false
  primary : Dispatched F
  secondary : Dispatched F

/-- The capture over frames `F`, feeding a pipeline with state `σ`. `dlt2` is there when the run has a
second source. -/
structure RunCapture (F σ : Type) where
  dlt : Nat
  dlt2 : Option Nat := none
  dumper : Bool := false
  pipeline : σ
  nextPcapFrameIdx : Nat := 0
  saved : List F := []
  error : String := ""

section

variable {F σ : Type} (process : σ → Int → Nat → F → σ)

/-- The callback of `dispatchFrom`: save the frame under the next index, tell the runner the index,
process the frame. `process` stands for the last two. -/
def RunCapture.handFrame (c : RunCapture F σ) (dlt : Nat) (frame : F) : RunCapture F σ :=
  if c.dumper then
    { c with
      saved := c.saved ++ [frame]
      nextPcapFrameIdx := c.nextPcapFrameIdx + 1
      pipeline := process c.pipeline c.nextPcapFrameIdx dlt frame }
  else { c with pipeline := process c.pipeline (-1) dlt frame }

/-- `RunCapture::dispatchFrom`. -/
def RunCapture.dispatchFrom (c : RunCapture F σ) (source : Dispatched F) (dlt : Nat) :
    RunCapture F σ :=
  source.frames.foldl (fun c frame => c.handFrame process dlt frame) c

/-- `RunCapture::drain`, without the background services and the flush of the saved file. -/
def RunCapture.drain (c : RunCapture F σ) (pass : Pass F) : Drained × RunCapture F σ :=
  if pass.stopRequested then (⟨.kStopped, 0⟩, c)
  else
    let c := c.dispatchFrom process pass.primary c.dlt
    match pass.primary.code with
    | .breakLoop => (⟨.kEndOfCapture, 0⟩, c)
    | .error text => (⟨.kError, 0⟩, { c with error := "dispatch error: " ++ text })
    | .count =>
      let n := pass.primary.frames.length
      match c.dlt2 with
      | none => (⟨.kOk, n⟩, c)
      | some dlt2 =>
        let c := c.dispatchFrom process pass.secondary dlt2
        match pass.secondary.code with
        | .breakLoop => (⟨.kEndOfCapture, n⟩, c)
        | .error text =>
          (⟨.kError, n⟩, { c with error := "dispatch error (secondary): " ++ text })
        | .count => (⟨.kOk, n + pass.secondary.frames.length⟩, c)

/-! ## Which frames a pass hands on -/

/-- The pass gets to the second source. -/
def ReachesSecondary (c : RunCapture F σ) (pass : Pass F) : Prop :=
  pass.stopRequested = false ∧ pass.primary.code = .count ∧ c.dlt2.isSome = true

instance (c : RunCapture F σ) (pass : Pass F) : Decidable (ReachesSecondary c pass) :=
  inferInstanceAs (Decidable (_ ∧ _ ∧ _))

@[simp] theorem handFrame_dlt2 (c : RunCapture F σ) (dlt : Nat) (frame : F) :
    (c.handFrame process dlt frame).dlt2 = c.dlt2 := by
  unfold RunCapture.handFrame
  split <;> rfl

@[simp] theorem dispatchFrom_dlt2 (c : RunCapture F σ) (source : Dispatched F) (dlt : Nat) :
    (c.dispatchFrom process source dlt).dlt2 = c.dlt2 := by
  unfold RunCapture.dispatchFrom
  induction source.frames generalizing c with
  | nil => rfl
  | cons frame frames ih => rw [List.foldl_cons, ih, handFrame_dlt2]

@[simp] theorem handFrame_pipeline (c : RunCapture F σ) (dlt : Nat) (frame : F) :
    (c.handFrame process dlt frame).pipeline =
      process c.pipeline (if c.dumper then (c.nextPcapFrameIdx : Int) else -1) dlt frame := by
  unfold RunCapture.handFrame
  split <;> simp_all

/-- What every handed frame keeps, a dispatch keeps. -/
theorem dispatchFrom_induction {P : RunCapture F σ → Prop} {c : RunCapture F σ} (h : P c)
    (hframe : ∀ c dlt frame, P c → P (c.handFrame process dlt frame)) (source : Dispatched F)
    (dlt : Nat) : P (c.dispatchFrom process source dlt) := by
  unfold RunCapture.dispatchFrom
  induction source.frames generalizing c with
  | nil => exact h
  | cons frame frames ih => exact ih (hframe c dlt frame h)

/-- What every handed frame keeps, a drain pass keeps. -/
theorem drain_induction {P : RunCapture F σ → Prop} {c : RunCapture F σ} (h : P c)
    (hframe : ∀ c dlt frame, P c → P (c.handFrame process dlt frame))
    (herror : ∀ c text, P c → P { c with error := text }) (pass : Pass F) :
    P (c.drain process pass).2 := by
  unfold RunCapture.drain
  split
  · exact h
  · have hprimary := dispatchFrom_induction process h hframe pass.primary c.dlt
    dsimp only
    split
    · exact hprimary
    · exact herror _ _ hprimary
    · split
      · exact hprimary
      · have hsecondary := dispatchFrom_induction process hprimary hframe pass.secondary
        split
        · exact hsecondary _
        · exact herror _ _ (hsecondary _)
        · exact hsecondary _

end

/-- A pipeline that keeps the frames it is handed. -/
def recordFrame {F : Type} (log : List F) (_idx : Int) (_dlt : Nat) (frame : F) : List F :=
  log ++ [frame]

/-- The frames a drain pass hands to the pipeline, in order. -/
def handed {F : Type} (c : RunCapture F (List F)) (pass : Pass F) : List F :=
  ({ c with pipeline := [] } : RunCapture F (List F)).drain recordFrame pass |>.2.pipeline

section

variable {F : Type}

private theorem dispatchFrom_pipeline (c : RunCapture F (List F)) (source : Dispatched F)
    (dlt : Nat) :
    (c.dispatchFrom recordFrame source dlt).pipeline = c.pipeline ++ source.frames := by
  unfold RunCapture.dispatchFrom
  induction source.frames generalizing c with
  | nil => simp
  | cons frame frames ih =>
    have hone : (c.handFrame recordFrame dlt frame).pipeline = c.pipeline ++ [frame] := by
      unfold RunCapture.handFrame
      split <;> rfl
    rw [List.foldl_cons, ih, hone, List.append_assoc, List.singleton_append]

/-- **The frames of a pass**: all of the primary's, then all of the secondary's. -/
theorem handed_eq (c : RunCapture F (List F)) (pass : Pass F) :
    handed c pass =
      if pass.stopRequested then []
      else if ReachesSecondary c pass then pass.primary.frames ++ pass.secondary.frames
      else pass.primary.frames := by
  unfold handed RunCapture.drain
  cases hstop : pass.stopRequested with
  | true => simp
  | false =>
    cases hcode : pass.primary.code with
    | breakLoop => simp [ReachesSecondary, hstop, hcode, dispatchFrom_pipeline]
    | error text => simp [ReachesSecondary, hstop, hcode, dispatchFrom_pipeline]
    | count =>
      cases hdlt : c.dlt2 with
      | none => simp [ReachesSecondary, hstop, hcode, hdlt, dispatchFrom_pipeline]
      | some dlt2 =>
        cases hcode2 : pass.secondary.code <;>
          simp [ReachesSecondary, hstop, hcode, hdlt, dispatchFrom_pipeline]

/-- **When the two sources form one time-ordered stream.** With each queue in timestamp order, the
frames of a pass are in timestamp order exactly when the pass does not get to the second source, or
no frame of the primary is later than a frame of the secondary. -/
theorem handed_sorted_iff (ts : F → Nat) (c : RunCapture F (List F)) (pass : Pass F)
    (hprimary : pass.primary.frames.Pairwise fun a b => ts a ≤ ts b)
    (hsecondary : pass.secondary.frames.Pairwise fun a b => ts a ≤ ts b) :
    ((handed c pass).Pairwise fun a b => ts a ≤ ts b) ↔
      (ReachesSecondary c pass → ∀ a ∈ pass.primary.frames, ∀ b ∈ pass.secondary.frames,
        ts a ≤ ts b) := by
  rw [handed_eq]
  by_cases hstop : pass.stopRequested = true
  · have hnot : ¬ ReachesSecondary c pass := fun h => by rw [h.1] at hstop; cases hstop
    simp [hstop, hnot]
  · by_cases hreach : ReachesSecondary c pass
    · simp only [hstop, hreach, if_true, Bool.false_eq_true, if_false, forall_const,
        List.pairwise_append]
      exact ⟨fun h => h.2.2, fun h => ⟨hprimary, hsecondary, h⟩⟩
    · simp [hstop, hreach, hprimary]

/-- A primary frame at 5, a secondary frame at 7. -/
theorem handed_sorted_five_seven :
    ((handed (F := Nat) { dlt := 1, dlt2 := some 1, pipeline := [] }
      { primary := ⟨[5], .count⟩, secondary := ⟨[7], .count⟩ }).Pairwise fun a b => a ≤ b) :=
  (handed_sorted_iff id _ { primary := ⟨[5], .count⟩, secondary := ⟨[7], .count⟩ } (by simp)
    (by simp)).2 fun _ => by simp

/-- The primary's queue holds a frame of time 5, the secondary's one of time 3: the pass hands them
on as 5, 3. -/
theorem handed_unsorted_five_three :
    ([5] : List Nat).Pairwise (fun a b => a ≤ b) ∧ ([3] : List Nat).Pairwise (fun a b => a ≤ b) ∧
      ¬ ((handed (F := Nat) { dlt := 1, dlt2 := some 1, pipeline := [] }
        { primary := ⟨[5], .count⟩, secondary := ⟨[3], .count⟩ }).Pairwise fun a b => a ≤ b) := by
  decide

end

end Tc8Harness.Capture
