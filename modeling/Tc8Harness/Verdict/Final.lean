import Tc8Harness.Verdict.Absence

/-!
# The verdict a run prints

The end of `TestCommand::run`: the state machine's verdict and everything the run knows about itself
go through the downgrade rules in their fixed order. `finalVerdict_cases` says in one place when the
machine's own verdict is printed and that nothing else is ever a pass or a fail; soundness and
monotonicity of the printed verdict follow from it.

`verdictSound_iff` is the exact result. The printed verdict is sound over every window unless the run
reaches the window check with a bound whose microseconds wrap (`BoundWraps`).
-/

namespace Tc8Harness.Sce

/-- What the command knows when it derives the verdict. The stop flag is read twice, when the machine
is found not done and before the anchor, and may change in between. `anchor` is the outcome of the
exchange if it is run. -/
structure RunFacts where
  machine : Verdict
  isDone : Bool
  stopAtExit : Bool
  stopAtAnchor : Bool
  firstUnperformed : String
  dissection : DissectionStats
  captureStats : List CaptureStats
  frameDriven : Bool
  windowUs : Option Int64
  paramListenTimeMs : UInt32
  anchor : LivenessAnchorOutcome

namespace RunFacts

/-- The machine's verdict, unless the run ended before the machine did. -/
def machineVerdict (f : RunFacts) : Verdict :=
  if !f.isDone then
    if f.stopAtExit then { cls := .error, reason := "interrupted" }
    else { cls := .inconclusive, reason := "harness_budget_exceeded" }
  else f.machine

/-- A stimulus that was never performed leaves the case without a premise. -/
def afterStimulus (f : RunFacts) (v : Verdict) : Verdict :=
  if v.cls ≠ .error ∧ f.firstUnperformed ≠ "" then
    { cls := .inconclusive, reason := "stimulus_" ++ f.firstUnperformed ++ "_not_performed" }
  else v

/-- A frame the case's own code failed on is a fault of the test system. -/
def afterConsumerFaults (f : RunFacts) (v : Verdict) : Verdict :=
  if v.cls ≠ .error ∧ f.dissection.consumerFaults ≠ 0 then
    { cls := .error, reason := "harness_fault_handling_a_captured_frame",
      role := "test_system_fault" }
  else v

def captureWhole (f : RunFacts) : Bool :=
  captureProvenComplete f.captureStats && f.dissection.observationComplete

def captureReason (f : RunFacts) : String :=
  if f.dissection.framesTruncated ≠ 0 then "capture_truncated_frames_absence_unproven"
  else if f.dissection.framesUndissectablePossiblyDut ≠ 0 then
    "capture_undissectable_frames_absence_unproven"
  else if anySourceLostFrames f.captureStats then "capture_lost_frames_absence_unproven"
  else if anySourceMissingMulticastMembership f.captureStats then
    "capture_multicast_group_unheld_absence_unproven"
  else "capture_completeness_unknown_absence_unproven"

/-- The facts for the qualification, with the anchor not run yet. -/
def absenceFacts (f : RunFacts) (v : Verdict) : AbsenceFacts :=
  { frameDecided := f.frameDriven
    captureWhole := f.captureWhole
    captureReason := f.captureReason
    windowUs := f.windowUs
    bound := resolveAbsenceBound v.bound f.paramListenTimeMs
    anchor := .kNotRun }

/-- The printed verdict. -/
def finalVerdict (f : RunFacts) : Verdict :=
  let v := f.afterConsumerFaults (f.afterStimulus f.machineVerdict)
  let absence := f.absenceFacts v
  let absence :=
    if !f.stopAtAnchor && needsLivenessAnchor v absence then { absence with anchor := f.anchor }
    else absence
  qualifyAbsence v absence

/-! ## When the machine's verdict is printed -/

/-- The capture, the window and the anchor, as the code checks them. -/
structure Established (f : RunFacts) : Prop where
  whole : f.captureWhole = true
  window : BoundMet f.machine (resolveAbsenceBound f.machine.bound f.paramListenTimeMs) f.windowUs
  running : f.stopAtAnchor = false
  answered : f.anchor = .kAnswered

/-- No rule of the derivation takes the machine's verdict away. -/
structure Concludes (f : RunFacts) : Prop where
  done : f.isDone = true
  performed : f.firstUnperformed = ""
  noFault : f.dissection.consumerFaults = 0
  absence : claimsAbsence f.machine f.frameDriven = true → f.Established

/-- The rules before the absence qualification keep the machine's verdict or leave neither a pass nor
a fail. -/
private theorem before_absence_cases (f : RunFacts) :
    (f.isDone = true ∧ f.firstUnperformed = "" ∧ f.dissection.consumerFaults = 0 →
      f.afterConsumerFaults (f.afterStimulus f.machineVerdict) = f.machine) ∧
    (¬ (f.isDone = true ∧ f.firstUnperformed = "" ∧ f.dissection.consumerFaults = 0) →
      (f.afterConsumerFaults (f.afterStimulus f.machineVerdict)).cls = .inconclusive ∨
        (f.afterConsumerFaults (f.afterStimulus f.machineVerdict)).cls = .error) := by
  refine ⟨?_, fun hnot => ?_⟩
  · rintro ⟨hdone, hperf, hfault⟩
    simp [afterConsumerFaults, afterStimulus, machineVerdict, hdone, hperf, hfault]
  · by_cases hfault : f.dissection.consumerFaults = 0
    · have hskip : f.afterConsumerFaults (f.afterStimulus f.machineVerdict) =
          f.afterStimulus f.machineVerdict := by
        simp [afterConsumerFaults, hfault]
      rw [hskip]
      by_cases herr : f.machineVerdict.cls = .error
      · exact .inr (by simp [afterStimulus, herr])
      · by_cases hperf : f.firstUnperformed = ""
        · have hdone : f.isDone = false := by
            cases h : f.isDone with
            | false => rfl
            | true => exact absurd ⟨h, hperf, hfault⟩ hnot
          have hskip' : f.afterStimulus f.machineVerdict = f.machineVerdict := by
            simp [afterStimulus, hperf]
          rw [hskip']
          unfold machineVerdict
          cases f.stopAtExit <;> simp [hdone]
        · exact .inl (by simp [afterStimulus, herr, hperf])
    · by_cases herr : (f.afterStimulus f.machineVerdict).cls = .error
      · exact .inr (by simp [afterConsumerFaults, herr])
      · exact .inr (by simp [afterConsumerFaults, herr, hfault])

/-- **The printed verdict** is the machine's own when the run concludes, and neither a pass nor a fail
when it does not. -/
theorem finalVerdict_cases (f : RunFacts) :
    (f.Concludes → f.finalVerdict = f.machine) ∧
      (¬ f.Concludes → f.finalVerdict.cls ≠ .pass ∧ f.finalVerdict.cls ≠ .fail) := by
  obtain ⟨hkeep, hlose⟩ := f.before_absence_cases
  by_cases hpre : f.isDone = true ∧ f.firstUnperformed = "" ∧ f.dissection.consumerFaults = 0
  · have hv := hkeep hpre
    obtain ⟨hdone, hperf, hfault⟩ := hpre
    unfold finalVerdict
    rw [hv]
    dsimp only
    have hbefore := unestablishedBeforeAnchor_eq_empty_iff f.machine (f.absenceFacts f.machine)
    -- The anchor's outcome counts only where it was run, and it is run only where it is needed.
    split
    · next hrun =>
      simp only [Bool.and_eq_true, Bool.not_eq_true', needsLivenessAnchor, beq_iff_eq] at hrun
      obtain ⟨hstop, hclaims, hempty⟩ := hrun
      obtain ⟨hwhole, hbound⟩ := hbefore.1 hempty
      obtain ⟨hself, hdown⟩ := qualifyAbsence_cases f.machine
        { f.absenceFacts f.machine with anchor := f.anchor }
      refine ⟨fun hc => hself fun _ => ⟨⟨hwhole, hbound⟩, (hc.absence hclaims).answered⟩, ?_⟩
      intro hnot
      have hanchor : f.anchor ≠ .kAnswered := fun ha =>
        hnot ⟨hdone, hperf, hfault, fun _ => ⟨hwhole, hbound, hstop, ha⟩⟩
      rw [hdown fun h => hanchor (h hclaims).2]
      exact ⟨by decide, by decide⟩
    · next hskip =>
      obtain ⟨hself, hdown⟩ := qualifyAbsence_cases f.machine (f.absenceFacts f.machine)
      by_cases hclaims : claimsAbsence f.machine f.frameDriven = true
      · refine ⟨fun hc => absurd ?_ hskip, fun _ => ?_⟩
        · have hest := hc.absence hclaims
          have hempty := hbefore.2 ⟨hest.whole, hest.window⟩
          have hframe : (f.absenceFacts f.machine).frameDecided = f.frameDriven := rfl
          simp [needsLivenessAnchor, hest.running, hempty, hframe, hclaims]
        · rw [hdown fun h => by cases (h hclaims).2]
          exact ⟨by decide, by decide⟩
      · refine ⟨fun _ => hself fun h => absurd h hclaims, fun hnot => ?_⟩
        exact absurd ⟨hdone, hperf, hfault, fun h => absurd h hclaims⟩ hnot
  · have hlost := hlose hpre
    refine ⟨fun hc => absurd ⟨hc.done, hc.performed, hc.noFault⟩ hpre, fun _ => ?_⟩
    have hclaims : claimsAbsence (f.afterConsumerFaults (f.afterStimulus f.machineVerdict))
        f.frameDriven = false := by
      unfold claimsAbsence
      rcases hlost with h | h <;> simp [h]
    have hsame : f.finalVerdict = f.afterConsumerFaults (f.afterStimulus f.machineVerdict) := by
      simp [finalVerdict, needsLivenessAnchor, qualifyAbsence, absenceFacts, hclaims]
    rw [hsame]
    rcases hlost with h | h <;> simp [h]

theorem finalVerdict_concludes {f : RunFacts}
    (h : f.finalVerdict.cls = .pass ∨ f.finalVerdict.cls = .fail) : f.Concludes := by
  by_contra hnot
  obtain ⟨hp, hf⟩ := f.finalVerdict_cases.2 hnot
  exact h.elim hp hf

/-! ## Soundness of the printed verdict -/

/-- The window, read with its slack, reaches the bound, if one is declared. Microseconds are exact. -/
def Covered (bound : String) (paramListenTimeMs : UInt32) (windowUs : Option Int64) : Prop :=
  bound ≠ "" → ∃ n, boundUs bound paramListenTimeMs = some n ∧ ∃ w, windowUs = some w ∧
    (n : Int) ≤ w.toInt + kWindowMeasurementSlackUs.toInt

/-- What a pass has to rest on. -/
structure PassGrounded (f : RunFacts) : Prop where
  done : f.isDone = true
  passFinal : f.machine.cls = .pass
  performed : f.firstUnperformed = ""
  noFault : f.dissection.consumerFaults = 0
  sources : f.frameDriven = false → f.captureStats ≠ [] ∧ ∀ s ∈ f.captureStats, s.Whole
  untruncated : f.frameDriven = false → f.dissection.framesTruncated = 0
  readable : f.frameDriven = false → f.dissection.framesUndissectablePossiblyDut = 0
  covered : f.frameDriven = false → Covered f.machine.bound f.paramListenTimeMs f.windowUs
  answered : f.frameDriven = false → f.stopAtAnchor = false ∧ f.anchor = .kAnswered

/-- One fact of the run goes bad; what it was before does not matter. -/
inductive Worsens (f : RunFacts) : RunFacts → Prop where
  | notDone : Worsens f { f with isDone := false }
  | stopped (atExit atAnchor : Bool) :
      Worsens f { f with
        stopAtExit := f.stopAtExit || atExit, stopAtAnchor := f.stopAtAnchor || atAnchor }
  | unperformed (name : String) (hbad : name ≠ "") : Worsens f { f with firstUnperformed := name }
  | consumerFaults (n : Nat) (hbad : n ≠ 0) :
      Worsens f { f with dissection := { f.dissection with consumerFaults := n } }
  | truncated (n : Nat) (hbad : n ≠ 0) :
      Worsens f { f with dissection := { f.dissection with framesTruncated := n } }
  | undissectable (n : Nat) (hbad : n ≠ 0) :
      Worsens f { f with dissection := { f.dissection with framesUndissectablePossiblyDut := n } }
  | capture (sources : List CaptureStats) (hbad : ¬ (sources ≠ [] ∧ ∀ s ∈ sources, s.Whole)) :
      Worsens f { f with captureStats := sources }
  | notFrameDriven : Worsens f { f with frameDriven := false }
  | window (w : Option Int64) (hbad : ¬ Covered f.machine.bound f.paramListenTimeMs w) :
      Worsens f { f with windowUs := w }
  | ixit (ms : UInt32) (hbad : ¬ Covered f.machine.bound ms f.windowUs) :
      Worsens f { f with paramListenTimeMs := ms }
  | anchor (outcome : LivenessAnchorOutcome) (hbad : outcome ≠ .kAnswered) :
      Worsens f { f with anchor := outcome }

/-- A pass is grounded, a fail is the machine's own, and a fact that goes bad makes neither. -/
structure VerdictSound (f : RunFacts) : Prop where
  pass : f.finalVerdict.cls = .pass → f.PassGrounded
  fail : f.finalVerdict.cls = .fail → f.isDone = true ∧ f.finalVerdict = f.machine
  monotone : ∀ f', f.Worsens f' →
    (f'.finalVerdict.cls = .pass → f.finalVerdict.cls = .pass) ∧
      (f'.finalVerdict.cls = .fail → f.finalVerdict.cls = .fail)

/-- Every condition before the window check holds, and the anchor would answer: the window against
the bound decides the verdict. -/
structure ReachesWindowCheck (f : RunFacts) : Prop where
  done : f.isDone = true
  performed : f.firstUnperformed = ""
  noFault : f.dissection.consumerFaults = 0
  claims : claimsAbsence f.machine f.frameDriven = true
  whole : f.captureWhole = true
  running : f.stopAtAnchor = false
  answered : f.anchor = .kAnswered

theorem Concludes.reaches {f : RunFacts} (h : f.Concludes)
    (hclaims : claimsAbsence f.machine f.frameDriven = true) : f.ReachesWindowCheck :=
  have hest := h.absence hclaims
  ⟨h.done, h.performed, h.noFault, hclaims, hest.whole, hest.running, hest.answered⟩

/-- The window check of a run that concludes on an absence is the exact one, unless the bound wraps. -/
theorem Concludes.covered {f : RunFacts} (h : f.Concludes)
    (hclaims : claimsAbsence f.machine f.frameDriven = true)
    (hwrap : ¬ BoundWraps f.machine.bound) :
    Covered f.machine.bound f.paramListenTimeMs f.windowUs :=
  fun hne => (h.absence hclaims).window.covers hne hwrap

private theorem claimsAbsence_frameDriven {v : Verdict} {frameDriven : Bool}
    (h : claimsAbsence v frameDriven = true) : frameDriven = false := by
  cases frameDriven with
  | false => rfl
  | true => simp [claimsAbsence] at h

private theorem captureWhole_iff (f : RunFacts) :
    f.captureWhole = true ↔ (f.captureStats ≠ [] ∧ ∀ s ∈ f.captureStats, s.Whole) ∧
      f.dissection.framesTruncated = 0 ∧ f.dissection.framesUndissectablePossiblyDut = 0 := by
  rw [captureWhole, Bool.and_eq_true, captureProvenComplete_iff,
    DissectionStats.observationComplete_iff]

/-- **One bad fact** never lets a run conclude that did not: each rule that reads the fact can only
take the verdict away. -/
theorem concludes_of_worsens {f f' : RunFacts} (hw : f.Worsens f') (h : f'.Concludes)
    (hwrap : f.ReachesWindowCheck → ¬ BoundWraps f.machine.bound) :
    f'.machine = f.machine ∧ f.Concludes := by
  cases hw with
  | notDone => cases h.done
  | stopped atExit atAnchor =>
    refine ⟨rfl, h.done, h.performed, h.noFault, fun hclaims => ?_⟩
    have hest := h.absence hclaims
    exact ⟨hest.whole, hest.window, (Bool.or_eq_false_iff.1 hest.running).1, hest.answered⟩
  | unperformed name hbad => exact absurd h.performed hbad
  | consumerFaults n hbad => exact absurd h.noFault hbad
  | truncated n hbad =>
    refine ⟨rfl, h.done, h.performed, h.noFault, fun hclaims => ?_⟩
    exact absurd ((captureWhole_iff _).1 (h.absence hclaims).whole).2.1 hbad
  | undissectable n hbad =>
    refine ⟨rfl, h.done, h.performed, h.noFault, fun hclaims => ?_⟩
    exact absurd ((captureWhole_iff _).1 (h.absence hclaims).whole).2.2 hbad
  | capture sources hbad =>
    refine ⟨rfl, h.done, h.performed, h.noFault, fun hclaims => ?_⟩
    exact absurd ((captureWhole_iff _).1 (h.absence hclaims).whole).1 hbad
  | notFrameDriven =>
    refine ⟨rfl, h.done, h.performed, h.noFault, fun hclaims => ?_⟩
    have hest := h.absence (claimsAbsence_frameDriven hclaims ▸ hclaims)
    exact ⟨hest.whole, hest.window, hest.running, hest.answered⟩
  | window w hbad =>
    refine ⟨rfl, h.done, h.performed, h.noFault, fun hclaims => ?_⟩
    have hr := h.reaches hclaims
    have hreach : f.ReachesWindowCheck :=
      ⟨hr.done, hr.performed, hr.noFault, hr.claims, hr.whole, hr.running, hr.answered⟩
    exact absurd (h.covered hclaims (hwrap hreach)) hbad
  | ixit ms hbad =>
    refine ⟨rfl, h.done, h.performed, h.noFault, fun hclaims => ?_⟩
    have hr := h.reaches hclaims
    have hreach : f.ReachesWindowCheck :=
      ⟨hr.done, hr.performed, hr.noFault, hr.claims, hr.whole, hr.running, hr.answered⟩
    exact absurd (h.covered hclaims (hwrap hreach)) hbad
  | anchor outcome hbad =>
    refine ⟨rfl, h.done, h.performed, h.noFault, fun hclaims => ?_⟩
    exact absurd (h.absence hclaims).answered hbad

/-- Unless a wrapped bound is what decides it, the printed verdict is sound. -/
theorem verdictSound_of {f : RunFacts}
    (hwrap : f.ReachesWindowCheck → ¬ BoundWraps f.machine.bound) : f.VerdictSound := by
  refine ⟨fun hpass => ?_, fun hfail => ?_, fun f' hw => ?_⟩
  · have hc := finalVerdict_concludes (.inl hpass)
    have hcls : f.machine.cls = .pass := by rw [← f.finalVerdict_cases.1 hc, hpass]
    have hclaims : f.frameDriven = false → claimsAbsence f.machine f.frameDriven = true := by
      intro hframe
      simp [claimsAbsence, hframe, hcls]
    have hwhole := fun hframe => (captureWhole_iff f).1 (hc.absence (hclaims hframe)).whole
    exact
      { done := hc.done
        passFinal := hcls
        performed := hc.performed
        noFault := hc.noFault
        sources := fun hframe => (hwhole hframe).1
        untruncated := fun hframe => (hwhole hframe).2.1
        readable := fun hframe => (hwhole hframe).2.2
        covered := fun hframe =>
          hc.covered (hclaims hframe) (hwrap (hc.reaches (hclaims hframe)))
        answered := fun hframe =>
          have hest := hc.absence (hclaims hframe)
          ⟨hest.running, hest.answered⟩ }
  · have hc := finalVerdict_concludes (.inr hfail)
    exact ⟨hc.done, f.finalVerdict_cases.1 hc⟩
  · have hkeep : f'.finalVerdict.cls = .pass ∨ f'.finalVerdict.cls = .fail →
        f.finalVerdict.cls = f'.finalVerdict.cls := by
      intro hcls
      have hc' := finalVerdict_concludes hcls
      obtain ⟨hm, hc⟩ := concludes_of_worsens hw hc' hwrap
      rw [f.finalVerdict_cases.1 hc, f'.finalVerdict_cases.1 hc', hm]
    exact ⟨fun h => (hkeep (.inl h)).trans h, fun h => (hkeep (.inr h)).trans h⟩

/-- A wrapped bound is met by the longest window whose slack still fits, and no window reaches it. -/
private theorem boundWraps_window {bound : String} (v : Verdict) (ms : UInt32)
    (h : BoundWraps bound) :
    ∃ w, BoundMet v (resolveAbsenceBound bound ms) (some w) ∧
      ¬ BoundMet v (resolveAbsenceBound bound ms) none ∧ ¬ Covered bound ms (some w) := by
  obtain ⟨hparam, scale, digits, hsplit, hread, n, hn, hbig⟩ := h
  obtain ⟨value, hvalue⟩ := Option.isSome_iff_exists.1 hread
  have hne : bound ≠ "" := by
    rintro rfl
    simp [splitUnit] at hsplit
  have hresolve : resolveAbsenceBound bound ms =
      { declared := true, valid := true, us := value * Int64.ofNat scale } := by
    simp [resolveAbsenceBound, hne, hparam, hsplit, hvalue]
  have hsum : (9223372036854755807 : Int64) + kWindowMeasurementSlackUs = Int64.maxValue := by decide
  have hint : (9223372036854755807 : Int64).toInt = 9223372036854755807 := by decide
  have hslack : kWindowMeasurementSlackUs.toInt = 20000 := by decide
  refine ⟨9223372036854755807, ?_, ?_, ?_⟩
  · rw [hresolve, BoundMet, if_pos rfl]
    refine ⟨rfl, _, rfl, ?_⟩
    rw [hsum]
    exact Int64.le_maxValue _
  · rw [hresolve, BoundMet, if_pos rfl]
    rintro ⟨-, w, hw, -⟩
    cases hw
  · intro hcov
    obtain ⟨m, hm, w, hw, hle⟩ := hcov hne
    cases hw
    simp only [boundUs, hparam, if_false, hsplit, hn, Option.map_some, Option.some.injEq] at hm
    rw [hint, hslack] at hle
    omega

/-- **Soundness of the printed verdict, exactly.** For every machine verdict and all the other facts
of a run, the printed verdict is sound whatever the window is, unless the run gets to the window
check with a declared bound whose microseconds wrap. -/
theorem verdictSound_iff (f : RunFacts) :
    (∀ w, ({ f with windowUs := w } : RunFacts).VerdictSound) ↔
      ¬ (f.ReachesWindowCheck ∧ BoundWraps f.machine.bound) := by
  constructor
  · rintro hsound ⟨hr, hwrap⟩
    obtain ⟨w, hmet, hnone, hbad⟩ := boundWraps_window f.machine f.paramListenTimeMs hwrap
    have hconcludes : ({ f with windowUs := some w } : RunFacts).Concludes :=
      ⟨hr.done, hr.performed, hr.noFault, fun _ => ⟨hr.whole, hmet, hr.running, hr.answered⟩⟩
    have hlost : ¬ ({ f with windowUs := none } : RunFacts).Concludes :=
      fun hc => hnone (hc.absence hr.claims).window
    have hverdict := (finalVerdict_cases _).1 hconcludes
    obtain ⟨hpass, hfail⟩ := (finalVerdict_cases _).2 hlost
    obtain ⟨mpass, mfail⟩ := (hsound none).monotone _ (Worsens.window (some w) hbad)
    -- A verdict that claims an absence is a pass or a fail, so the longer window forged one.
    have hcls : f.machine.cls = .pass ∨ f.machine.cls = .fail := by
      have hclaims := hr.claims
      unfold claimsAbsence at hclaims
      repeat' split at hclaims
      · cases hclaims
      · exact .inl (by assumption)
      · exact .inr (of_decide_eq_true (Bool.and_eq_true_iff.1 hclaims).1)
    rcases hcls with hcls | hcls
    · exact hpass (mpass (by rw [hverdict]; exact hcls))
    · exact hfail (mfail (by rw [hverdict]; exact hcls))
  · intro hnot w
    refine verdictSound_of fun hr hwrap => hnot ⟨?_, hwrap⟩
    exact ⟨hr.done, hr.performed, hr.noFault, hr.claims, hr.whole, hr.running, hr.answered⟩

/-- A pass after a silent window of five seconds, all other facts good, against a declared bound of
ten million million seconds: printed, although the window is far too short. -/
theorem verdictSound_fails_at_wrapped_bound :
    ¬ VerdictSound
      { machine := { cls := .pass, role := "conformant_absence", bound := "10000000000000s" }
        isDone := true
        stopAtExit := false
        stopAtAnchor := false
        firstUnperformed := ""
        dissection := { framesSeen := 12 }
        captureStats := [⟨true, 0, 0, []⟩]
        frameDriven := false
        windowUs := some 5000000
        paramListenTimeMs := 2000
        anchor := .kAnswered } := by
  intro h
  have hcov := (h.pass (by decide)).covered rfl (by decide)
  obtain ⟨n, hn, w, hw, hle⟩ := hcov
  have hn' : n = 10000000000000000000 := by
    have hb : boundUs "10000000000000s" 2000 = some 10000000000000000000 := by decide
    rw [hb] at hn
    exact (Option.some.inj hn).symm
  cases hw
  subst hn'
  exact absurd hle (by decide)

end RunFacts

end Tc8Harness.Sce
