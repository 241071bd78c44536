import Tc8Harness.Capture.RunCapture
import Tc8Harness.Runner.Holding

/-!
# The trace is a path of the machine

A run of the harness: the capture is drained, first for an awaiting stimulus and then by the loop, the
runner is started in between, and the loop ticks it. `Ledger` is the invariant of a started runner: the
trace is the list of calls that changed the machine's state, and these calls lead from the state
`start` initialised to the current one. The capture's side of it is `numbered`: with a saved pcap, the
items the machine was called on are those of the saved frames, each under its frame's position.

`trace_isPath` is the result for every run in which a call that throws leaves the machine's state as it
was: what such a call changes is not recorded (`trace_not_path_thrown`).
-/

namespace Tc8Harness.Sce

open Capture

/-- The call returned and had changed the machine's state. -/
def Move.recorded {E S : Type} [DecidableEq S] (m : Move E S) : Bool := !m.threw && decide (m.before ≠ m.after)

theorem Move.recorded_iff {E S : Type} [DecidableEq S] {m : Move E S} :
    m.recorded = true ↔ m.threw = false ∧ m.before ≠ m.after := by
  simp [Move.recorded]

/-- The calls lead from state `a` to state `b`. -/
def MovesFrom {E S : Type} : S → List (Move E S) → S → Prop
  | a, [], b => b = a
  | a, m :: ms, b => m.before = a ∧ MovesFrom m.after ms b

theorem MovesFrom.concat {E S : Type} {a b : S} {ms : List (Move E S)} (h : MovesFrom a ms b)
    {m : Move E S} (hm : m.before = b) : MovesFrom a (ms ++ [m]) m.after := by
  induction ms generalizing a with
  | nil =>
    have hab : b = a := h
    exact ⟨hm.trans hab, rfl⟩
  | cons n ms ih => exact ⟨h.1, ih h.2⟩

/-- Where a call that throws changes nothing, the calls that are not recorded can be left out. -/
theorem MovesFrom.filter {E S : Type} [DecidableEq S] {a b : S} {ms : List (Move E S)}
    (h : MovesFrom a ms b) (hthrows : ∀ m ∈ ms, m.threw = true → m.before = m.after) :
    MovesFrom a (ms.filter Move.recorded) b := by
  induction ms generalizing a with
  | nil => exact h
  | cons m ms ih =>
    have hrest := fun n hn => hthrows n (List.mem_cons_of_mem m hn)
    rw [List.filter_cons]
    split
    case isTrue hc => exact ⟨h.1, ih h.2 hrest⟩
    case isFalse hc =>
      have heq : m.before = m.after := by
        rw [Move.recorded_iff] at hc
        by_contra hne
        exact hne (hthrows m List.mem_cons_self (Bool.eq_true_of_not_eq_false fun hret => hc ⟨hret, hne⟩))
      rw [← h.1, heq]
      exact ih h.2 hrest

/-- The step of the trace a call leaves. -/
structure StepOf {κ μ S E A O : Type} (case : Case κ μ S E A O) (step : TransitionStep)
    (m : Move E S) : Prop where
  fromState : step.fromStateName = case.getStateName m.before
  toState : step.toStateName = case.getStateName m.after
  pcapFrameIdx : step.pcapFrameIdx = m.pcapFrameIdx

section

variable {κ μ S E A O : Type} {case : Case κ μ S E A O} {trace : List TransitionStep}
  {ms : List (Move E S)}

theorem stepOf_indices (hsteps : List.Forall₂ (StepOf case) trace ms) :
    trace.map (fun step => step.pcapFrameIdx) = ms.map fun m => m.pcapFrameIdx := by
  induction hsteps with
  | nil => rfl
  | cons hstep _ ih => rw [List.map_cons, List.map_cons, hstep.pcapFrameIdx, ih]

theorem exists_stepOf (hsteps : List.Forall₂ (StepOf case) trace ms) {step : TransitionStep}
    (hstep : step ∈ trace) : ∃ m ∈ ms, StepOf case step m := by
  induction hsteps with
  | nil => cases hstep
  | @cons s m trace ms hof _ ih =>
    rcases List.mem_cons.1 hstep with rfl | hin
    · exact ⟨m, List.mem_cons_self, hof⟩
    · obtain ⟨n, hn, hofn⟩ := ih hin
      exact ⟨n, List.mem_cons_of_mem _ hn, hofn⟩

/-- A trace whose calls lead from `a` to `b` leads from the name of `a` to the name of `b`. -/
theorem trace_of_movesFrom (hsteps : List.Forall₂ (StepOf case) trace ms) {a b : S}
    (hpath : MovesFrom a ms b) :
    (∀ step, trace.head? = some step → step.fromStateName = case.getStateName a) ∧
      trace.IsChain (fun s t => s.toStateName = t.fromStateName) ∧
      (trace.getLast?.elim (case.getStateName a) fun step => step.toStateName) =
        case.getStateName b := by
  induction hsteps generalizing a with
  | nil =>
    have hab : b = a := hpath
    exact ⟨by simp, List.IsChain.nil, by rw [hab]; rfl⟩
  | @cons step m trace ms hstep _ ih =>
    obtain ⟨hfirst, hchain, hlast⟩ := ih hpath.2
    refine ⟨?_, ?_, ?_⟩
    · intro s hs
      cases hs
      rw [hstep.fromState, hpath.1]
    · rw [List.isChain_cons]
      refine ⟨fun t ht => ?_, hchain⟩
      rw [hstep.toState, hfirst t ht]
    · rw [List.getLast?_cons]
      rcases hl : trace.getLast? with _ | last
      · rw [hl] at hlast
        exact hstep.toState.trans hlast
      · rw [hl] at hlast
        exact hlast

end

/-! ## The ledger of a started runner -/

namespace Runner

variable {κ μ S E A O : Type} [DecidableEq S] {case : Case κ μ S E A O} {clock : Nat → Int}

/-- The trace lists the calls that returned and had changed the state, in order, and all calls lead from
`init` to the current state. Only an item's call has an index in effect. -/
structure Ledger (case : Case κ μ S E A O) (init : S) (r : Runner κ μ S E A O) : Prop where
  stepIdx : ∀ (i : Nat) (step : TransitionStep), r.trace[i]? = some step → step.stepIdx = i
  steps : List.Forall₂ (StepOf case) r.trace (r.moves.filter Move.recorded)
  path : MovesFrom init r.moves (r.finalState case)
  unframed : ∀ m ∈ r.moves, (∀ i, m.cause ≠ .item i) → m.pcapFrameIdx = -1

namespace Ledger

variable {init : S} {r r' : Runner κ μ S E A O}

theorem congr (h : Ledger case init r) (hsm : r'.sm = r.sm) (htrace : r'.trace = r.trace)
    (hmoves : r'.moves = r.moves) : Ledger case init r' where
  stepIdx := by rw [htrace]; exact h.stepIdx
  steps := by rw [htrace, hmoves]; exact h.steps
  path := by
    rw [hmoves, finalState, hsm]
    exact h.path
  unframed := by rw [hmoves]; exact h.unframed

theorem same (h : Ledger case init r) (hsame : SameRun r r') : Ledger case init r' :=
  h.congr hsame.sm hsame.trace hsame.moves

/-- **Step lemma**: one more call keeps the ledger. -/
theorem drove (h : Ledger case init r) {cause : Cause E} {idx : Int} {threw : Bool}
    (hdrove : Drove case cause idx threw r r') (hidx : (∀ i, cause ≠ .item i) → idx = -1) :
    Ledger case init r' := by
  have hpath : MovesFrom init r'.moves (r'.finalState case) := by
    rw [hdrove.moves]
    exact h.path.concat rfl
  have hunframed : ∀ m ∈ r'.moves, (∀ i, m.cause ≠ .item i) → m.pcapFrameIdx = -1 := by
    intro m hm hcause
    rw [hdrove.moves] at hm
    rcases List.mem_append.1 hm with hm | hm
    · exact h.unframed m hm hcause
    · rw [List.mem_singleton.1 hm] at hcause ⊢
      exact hidx hcause
  by_cases hkept : threw = true ∨ r.finalState case = r'.finalState case
  · have htrace := hdrove.kept hkept
    have hlast : ([⟨cause, idx, r.finalState case, r'.finalState case, threw⟩] : List (Move E S)).filter
        Move.recorded = [] := by
      rcases hkept with rfl | hstate
      · rfl
      · simp [Move.recorded, hstate]
    refine ⟨by rw [htrace]; exact h.stepIdx, ?_, hpath, hunframed⟩
    rw [htrace, hdrove.moves, List.filter_append, hlast, List.append_nil]
    exact h.steps
  · obtain ⟨hreturned, hstate⟩ := not_or.1 hkept
    have hthrew : threw = false := Bool.not_eq_true _ ▸ hreturned
    obtain ⟨step, htrace, hstepIdx, hfrom, hto, hframe⟩ := hdrove.recorded hthrew hstate
    refine ⟨?_, ?_, hpath, hunframed⟩
    · intro i s hs
      rw [htrace] at hs
      rcases Nat.lt_or_ge i r.trace.length with hi | hi
      · rw [List.getElem?_append_left hi] at hs
        exact h.stepIdx i s hs
      · rw [List.getElem?_append_right hi] at hs
        have hzero : i - r.trace.length = 0 := by
          by_contra hne
          rw [List.getElem?_eq_none (by simp; omega)] at hs
          cases hs
        rw [hzero] at hs
        cases hs
        rw [hstepIdx]
        omega
    · rw [htrace, hdrove.moves, List.filter_append]
      have hlast : ([⟨cause, idx, r.finalState case, r'.finalState case, threw⟩] : List (Move E S)).filter
          Move.recorded = [⟨cause, idx, r.finalState case, r'.finalState case, threw⟩] := by
        simp [Move.recorded, hthrew, hstate]
      rw [hlast]
      exact List.rel_append h.steps (.cons ⟨hfrom, hto, hframe⟩ .nil)

theorem andThen {f : Runner κ μ S E A O → Runner κ μ S E A O} (h : Ledger case init r)
    (hf : Ledger case init (f r)) : Ledger case init (r.andThen f) := by
  unfold Runner.andThen
  split
  · exact h
  · exact hf

end Ledger

theorem handItem_ledger {init : S} {r : Runner κ μ S E A O} (h : Ledger case init r) (i : Item E) :
    Ledger case init (r.handItem clock case i) := by
  cases hi : reachesMachine case i with
  | true =>
    obtain ⟨_, hdrove⟩ := handItem_drove clock case hi r
    exact h.drove hdrove fun hne => absurd rfl (hne i)
  | false =>
    rw [handItem_of_not_reaches clock case hi]
    exact h

theorem onItem_ledger {init : S} {r : Runner κ μ S E A O} (hr : r.started = true)
    (h : Ledger case init r) (i : Item E) : Ledger case init (r.onItem case clock i) := by
  rw [onItem_started clock case hr]
  have hitem : Ledger case init (r.handItem clock case i) := handItem_ledger h i
  refine hitem.andThen ?_
  cases i with
  | event ev => exact hitem.congr rfl rfl rfl
  | marker name => exact hitem

theorem onItem_keepsStarted {r : Runner κ μ S E A O} (hr : r.started = true) (i : Item E) :
    (r.onItem case clock i).started = true := by
  rw [onItem_started clock case hr]
  have hitem : (r.handItem clock case i).started = true := (handItem_started r i).trans hr
  unfold Runner.andThen
  split
  · exact hitem
  · exact (fanOutItem_same case i _).1.trans hitem

theorem onFrame_ledger {init : S} {r : Runner κ μ S E A O} (hr : r.started = true)
    (h : Ledger case init r) (idx : Int) (items : List (Item E)) :
    Ledger case init (r.onFrame case clock idx items) := by
  have hslot : Ledger case init (r.setNextPcapFrameIdx idx) := h.congr rfl rfl rfl
  have hitems : Ledger case init (r.handItems case clock idx items) := by
    unfold handItems
    generalize hs : r.setNextPcapFrameIdx idx = r₁ at hslot
    have hr₁ : r₁.started = true := by rw [← hs]; exact hr
    clear hs
    induction items generalizing r₁ with
    | nil => exact hslot
    | cons i items ih =>
      refine ih _ (hslot.andThen (onItem_ledger hr₁ hslot i)) ?_
      change (r₁.andThen (onItem case clock i)).started = true
      unfold Runner.andThen
      split
      · exact hr₁
      · exact onItem_keepsStarted hr₁ i
  exact hitems.congr rfl rfl rfl

theorem tick_ledger {init : S} {r : Runner κ μ S E A O} (h : Ledger case init r) :
    Ledger case init (r.tick case clock) :=
  h.drove (tick_drove clock case r) fun _ => rfl

theorem foldl_replay_ledger {init : S} {r : Runner κ μ S E A O} (h : Ledger case init r)
    (held : List (Held E)) :
    Ledger case init (held.foldl (fun r h => r.andThen (replay case clock h)) r) := by
  induction held generalizing r with
  | nil => exact h
  | cons x held ih =>
    have hslot : Ledger case init (r.setNextPcapFrameIdx x.pcapFrameIdx) := h.congr rfl rfl rfl
    refine ih (h.andThen ?_)
    rw [replay_eq]
    exact handItem_ledger hslot _

/-- `start` opens the ledger of a runner whose machine has not been called. -/
theorem start_ledger {r : Runner κ μ S E A O} (htrace : r.trace = []) (hmoves : r.moves = [])
    (realtimeNowUs : Int) :
    Ledger case ((r.initialized case clock realtimeNowUs).finalState case)
      (r.start case clock realtimeNowUs) := by
  have hinit : Ledger case ((r.initialized case clock realtimeNowUs).finalState case)
      (r.initialized case clock realtimeNowUs) := by
    have htrace' : (r.initialized case clock realtimeNowUs).trace = [] := htrace
    have hmoves' : (r.initialized case clock realtimeNowUs).moves = [] := hmoves
    refine ⟨?_, ?_, ?_, ?_⟩
    · rw [htrace']
      intro i step hstep
      cases hstep
    · rw [htrace', hmoves']
      exact .nil
    · rw [hmoves']
      exact rfl
    · rw [hmoves']
      intro m hm
      cases hm
  have hreplayed := @foldl_replay_ledger κ μ S E A O _ case clock _ _ hinit
    (r.initialized case clock realtimeNowUs).held
  have hreleased := hreplayed.andThen (f := fun r => { r with held := [] }) (hreplayed.congr rfl rfl rfl)
  have hready := hreleased.andThen (f := setNextPcapFrameIdx (-1)) (hreleased.congr rfl rfl rfl)
  refine hready.andThen ?_
  rcases settleStimulus_cases clock case _ with hsame | ⟨_, hdrove⟩
  · exact hready.same hsame
  · exact hready.drove hdrove fun _ => rfl

end Runner

/-! ## The capture's side -/

/-- Frames, each as the items it fans out into, with the index each was processed under: its position
in the saved pcap, or `-1` when there is none. -/
def numbered {E : Type} (dumper : Bool) (frames : List (List (Item E))) : List (Item E × Int) :=
  frames.zipIdx.flatMap fun f => f.1.map fun i => (i, if dumper then (f.2 : Int) else -1)

theorem numbered_concat {E : Type} (dumper : Bool) (frames : List (List (Item E)))
    (items : List (Item E)) :
    numbered dumper (frames ++ [items]) =
      numbered dumper frames ++ items.map fun i => (i, if dumper then (frames.length : Int) else -1) := by
  unfold numbered
  rw [List.zipIdx_append, List.flatMap_append]
  simp

/-- An item's index is its frame's position, or `-1` without a saved pcap. -/
theorem mem_numbered {E : Type} {dumper : Bool} {frames : List (List (Item E))} {i : Item E}
    {idx : Int} (h : (i, idx) ∈ numbered dumper frames) :
    ∃ (k : Nat) (items : List (Item E)), frames[k]? = some items ∧ i ∈ items ∧
      idx = if dumper then (k : Int) else -1 := by
  unfold numbered at h
  obtain ⟨⟨items, k⟩, hframe, hitem⟩ := List.mem_flatMap.1 h
  obtain ⟨j, hj, heq⟩ := List.mem_map.1 hitem
  cases heq
  exact ⟨k, items, List.mk_mem_zipIdx_iff_getElem?.1 hframe, hj, rfl⟩

theorem numbered_sorted {E : Type} (dumper : Bool) (frames : List (List (Item E))) :
    (numbered dumper frames).Pairwise fun a b => a.2 ≤ b.2 := by
  induction frames using List.reverseRecOn with
  | nil => exact List.Pairwise.nil
  | append_singleton frames items ih =>
    rw [numbered_concat]
    refine List.pairwise_append.2 ⟨ih, ?_, ?_⟩
    · refine List.pairwise_map.2 (List.pairwise_of_forall fun _ _ => Int.le_refl _)
    · rintro ⟨i, idx⟩ hi b hb
      obtain ⟨j, -, rfl⟩ := List.mem_map.1 hb
      obtain ⟨k, items', hk, -, rfl⟩ := mem_numbered hi
      have hlt : k < frames.length := (List.getElem?_eq_some_iff.1 hk).1
      cases dumper with
      | false => exact Int.le_refl _
      | true => exact Int.ofNat_le.2 (Nat.le_of_lt hlt)

/-! ## Runs of the harness -/

/-- What happens while a stimulus runs: the capture is drained, or the stimulus acts on the runner.
A frame stands for the items the pipeline fans it out into. -/
inductive CaptureOp (κ E A O : Type) where
  | drain (pass : Pass (List (Item E)))
  | side (op : SideOp κ E A O)

/-- What happens in the capture loop. -/
inductive CaptureLoopOp (κ E A O : Type) where
  | capture (op : CaptureOp κ E A O)
  | tick

namespace Runner

variable {κ μ S E A O : Type} [DecidableEq S] (case : Case κ μ S E A O) (clock : Nat → Int)

/-- One frame through the pipeline to the runner. -/
def process (r : Runner κ μ S E A O) (idx : Int) (_dlt : Nat) (items : List (Item E)) :
    Runner κ μ S E A O :=
  r.onFrame case clock idx items

def captureStep (c : RunCapture (List (Item E)) (Runner κ μ S E A O)) :
    CaptureOp κ E A O → RunCapture (List (Item E)) (Runner κ μ S E A O)
  | .drain pass => (c.drain (process case clock) pass).2
  | .side op => { c with pipeline := c.pipeline.aside clock op }

def captureLoopStep (c : RunCapture (List (Item E)) (Runner κ μ S E A O)) :
    CaptureLoopOp κ E A O → RunCapture (List (Item E)) (Runner κ μ S E A O)
  | .capture op => captureStep case clock c op
  | .tick => { c with pipeline := c.pipeline.tick case clock }

def captureStart (realtimeNowUs : Int) (c : RunCapture (List (Item E)) (Runner κ μ S E A O)) :
    RunCapture (List (Item E)) (Runner κ μ S E A O) :=
  { c with pipeline := c.pipeline.start case clock realtimeNowUs }

/-- A run: what the stimulus does and drains, `start`, and the capture loop. An exception out of `start`
is its end. -/
def harnessRun (c : RunCapture (List (Item E)) (Runner κ μ S E A O))
    (before : List (CaptureOp κ E A O)) (realtimeNowUs : Int)
    (after : List (CaptureLoopOp κ E A O)) : RunCapture (List (Item E)) (Runner κ μ S E A O) :=
  let c := captureStart case clock realtimeNowUs (before.foldl (captureStep case clock) c)
  if c.pipeline.thrown then c else after.foldl (captureLoopStep case clock) c

/-- A capture before its first frame, over a runner as it is constructed. -/
def freshCapture (dlt : Nat) (dlt2 : Option Nat) (dumper : Bool) (captured : κ) (sm : μ) :
    RunCapture (List (Item E)) (Runner κ μ S E A O) :=
  { dlt := dlt, dlt2 := dlt2, dumper := dumper, pipeline := fresh captured sm }

/-- The capture has handed `frames` on, and saved them if it saves any. -/
structure Counted (dumper : Bool) (frames : List (List (Item E)))
    (c : RunCapture (List (Item E)) (Runner κ μ S E A O)) : Prop where
  saves : c.dumper = dumper
  next : c.nextPcapFrameIdx = if dumper then frames.length else 0
  saved : c.saved = if dumper then frames else []

variable {case clock}

omit [DecidableEq S] in
theorem Counted.slot {dumper : Bool} {frames : List (List (Item E))}
    {c : RunCapture (List (Item E)) (Runner κ μ S E A O)} (h : Counted dumper frames c) :
    (if c.dumper then (c.nextPcapFrameIdx : Int) else -1) =
      if dumper then (frames.length : Int) else -1 := by
  rw [h.saves, h.next]
  cases dumper <;> rfl

theorem Counted.handFrame {dumper : Bool} {frames : List (List (Item E))}
    {c : RunCapture (List (Item E)) (Runner κ μ S E A O)} (h : Counted dumper frames c)
    (dlt : Nat) (items : List (Item E)) :
    Counted dumper (frames ++ [items]) (c.handFrame (process case clock) dlt items) := by
  unfold RunCapture.handFrame
  cases dumper with
  | true =>
    have hnext : c.nextPcapFrameIdx = frames.length := h.next
    have hsaved : c.saved = frames := h.saved
    rw [if_pos h.saves]
    exact ⟨h.saves, by simp [hnext], by simp [hsaved]⟩
  | false =>
    have hnot : ¬ c.dumper = true := by rw [h.saves]; exact Bool.false_ne_true
    rw [if_neg hnot]
    exact ⟨h.saves, h.next, h.saved⟩

/-- The frame is handed on under the index it is saved at. -/
theorem Counted.pipeline_handFrame {dumper : Bool} {frames : List (List (Item E))}
    {c : RunCapture (List (Item E)) (Runner κ μ S E A O)} (h : Counted dumper frames c)
    (dlt : Nat) (items : List (Item E)) :
    (c.handFrame (process case clock) dlt items).pipeline =
      c.pipeline.onFrame case clock (if dumper then (frames.length : Int) else -1) items := by
  rw [handFrame_pipeline, h.slot]
  rfl

/-- The stimulus runs: what is drained is held. -/
structure Waiting (dumper : Bool) (frames : List (List (Item E)))
    (c : RunCapture (List (Item E)) (Runner κ μ S E A O)) : Prop where
  counted : Counted dumper frames c
  started : c.pipeline.started = false
  trace : c.pipeline.trace = []
  moves : c.pipeline.moves = []
  held : (c.pipeline.held.map fun h => (h.item, h.pcapFrameIdx)).Sublist (numbered dumper frames)

/-- The loop runs: what is drained has been handed to the machine, and the ledger is kept. -/
structure Running (case : Case κ μ S E A O) (init : S) (dumper : Bool)
    (frames : List (List (Item E))) (c : RunCapture (List (Item E)) (Runner κ μ S E A O)) :
    Prop where
  counted : Counted dumper frames c
  started : c.pipeline.started = true
  received : c.pipeline.received.Sublist (machineItems case (numbered dumper frames))
  ledger : Ledger case init c.pipeline

theorem Waiting.handFrame {dumper : Bool} {frames : List (List (Item E))}
    {c : RunCapture (List (Item E)) (Runner κ μ S E A O)} (h : Waiting dumper frames c)
    (dlt : Nat) (items : List (Item E)) :
    Waiting dumper (frames ++ [items]) (c.handFrame (process case clock) dlt items) := by
  have hframe := @handItems_heldBack κ μ S E A O _ case clock _ h.started
    (if dumper then (frames.length : Int) else -1) items
  refine ⟨h.counted.handFrame dlt items, ?_, ?_, ?_, ?_⟩
  · rw [h.counted.pipeline_handFrame]
    exact hframe.started
  · rw [h.counted.pipeline_handFrame]
    exact hframe.trace.trans h.trace
  · rw [h.counted.pipeline_handFrame]
    exact hframe.moves.trans h.moves
  · obtain ⟨part, hpart, hsub⟩ := hframe.part
    have hheld : (c.handFrame (process case clock) dlt items).pipeline.held =
        c.pipeline.held ++ part.map fun i => ⟨i.1, i.2⟩ := by
      rw [h.counted.pipeline_handFrame]
      exact hpart
    rw [hheld, List.map_append, List.map_map, numbered_concat]
    refine h.held.append ?_
    rwa [show ((fun h : Held E => (h.item, h.pcapFrameIdx)) ∘ fun i : Item E × Int => ⟨i.1, i.2⟩) = id from rfl,
      List.map_id]

theorem Running.handFrame {init : S} {dumper : Bool} {frames : List (List (Item E))}
    {c : RunCapture (List (Item E)) (Runner κ μ S E A O)} (h : Running case init dumper frames c)
    (dlt : Nat) (items : List (Item E)) :
    Running case init dumper (frames ++ [items])
      (c.handFrame (process case clock) dlt items) := by
  have hframe := @handItems_handedOver κ μ S E A O _ case clock _ h.started
    (if dumper then (frames.length : Int) else -1) items
  refine ⟨h.counted.handFrame dlt items, ?_, ?_, ?_⟩
  · rw [h.counted.pipeline_handFrame]
    exact hframe.started
  · obtain ⟨part, hpart, hsub⟩ := hframe.part
    have hreceived : (c.handFrame (process case clock) dlt items).pipeline.received =
        c.pipeline.received ++ part := by
      rw [h.counted.pipeline_handFrame]
      exact hpart
    rw [hreceived, numbered_concat, machineItems_append]
    exact h.received.append hsub
  · rw [h.counted.pipeline_handFrame]
    exact onFrame_ledger h.started h.ledger _ items

theorem captureStep_waiting {dumper : Bool} {c : RunCapture (List (Item E)) (Runner κ μ S E A O)}
    (h : ∃ frames, Waiting dumper frames c) (op : CaptureOp κ E A O) :
    ∃ frames, Waiting dumper frames (captureStep case clock c op) := by
  cases op with
  | drain pass =>
    refine drain_induction (P := fun c => ∃ frames, Waiting dumper frames c)
      (process case clock) h ?_ ?_ pass
    · rintro c dlt items ⟨frames, hc⟩
      exact ⟨_, hc.handFrame dlt items⟩
    · rintro c text ⟨frames, hc⟩
      exact ⟨frames, ⟨hc.counted.saves, hc.counted.next, hc.counted.saved⟩, hc.started, hc.trace, hc.moves,
        hc.held⟩
  | side op =>
    obtain ⟨frames, hc⟩ := h
    have hsame := aside_same clock c.pipeline op
    refine ⟨frames, ⟨hc.counted.saves, hc.counted.next, hc.counted.saved⟩, hsame.started.trans hc.started,
      hsame.trace.trans hc.trace, hsame.moves.trans hc.moves, ?_⟩
    change ((c.pipeline.aside clock op).held.map _).Sublist _
    rw [hsame.held]
    exact hc.held

theorem captureLoopStep_running {init : S} {dumper : Bool}
    {c : RunCapture (List (Item E)) (Runner κ μ S E A O)}
    (h : ∃ frames, Running case init dumper frames c) (op : CaptureLoopOp κ E A O) :
    ∃ frames, Running case init dumper frames (captureLoopStep case clock c op) := by
  -- A step of the runner alone that the machine is handed no item in.
  have hrunner : ∀ {frames} {r : Runner κ μ S E A O}, Running case init dumper frames c →
      r.started = true → r.received = c.pipeline.received → Ledger case init r →
      ∃ frames, Running case init dumper frames { c with pipeline := r } := by
    intro frames r hc hstarted hreceived hledger
    exact ⟨frames, ⟨hc.counted.saves, hc.counted.next, hc.counted.saved⟩, hstarted,
      hreceived ▸ hc.received, hledger⟩
  cases op with
  | tick =>
    obtain ⟨frames, hc⟩ := h
    have hdrove := tick_drove clock case c.pipeline
    exact hrunner hc (hdrove.started.trans hc.started) hdrove.received_tick (tick_ledger hc.ledger)
  | capture op =>
    cases op with
    | drain pass =>
      refine drain_induction (P := fun c => ∃ frames, Running case init dumper frames c)
        (process case clock) h ?_ ?_ pass
      · rintro c dlt items ⟨frames, hc⟩
        exact ⟨_, hc.handFrame dlt items⟩
      · rintro c text ⟨frames, hcounted, hstarted, hreceived, hledger⟩
        exact ⟨frames, ⟨hcounted.saves, hcounted.next, hcounted.saved⟩, hstarted, hreceived,
          hledger⟩
    | side op =>
      obtain ⟨frames, hc⟩ := h
      have hsame := aside_same clock c.pipeline op
      exact hrunner hc (hsame.started.trans hc.started) hsame.received (hc.ledger.same hsame)

/-- `start` hands over what is held and opens the ledger. -/
theorem Waiting.start {dumper : Bool} {frames : List (List (Item E))}
    {c : RunCapture (List (Item E)) (Runner κ μ S E A O)} (h : Waiting dumper frames c)
    (realtimeNowUs : Int) :
    Running case ((c.pipeline.initialized case clock realtimeNowUs).finalState case) dumper frames
      (captureStart case clock realtimeNowUs c) := by
  have hstart := @start_handedOver κ μ S E A O _ case clock c.pipeline realtimeNowUs
  have hnone : c.pipeline.received = [] := by
    unfold received
    rw [h.moves]
    rfl
  refine ⟨⟨h.counted.saves, h.counted.next, h.counted.saved⟩, hstart.started, ?_,
    start_ledger h.trace h.moves realtimeNowUs⟩
  obtain ⟨part, hpart, hsub⟩ := hstart.part
  rw [hnone, List.nil_append] at hpart
  change (c.pipeline.start case clock realtimeNowUs).received.Sublist _
  rw [hpart]
  exact hsub.trans (h.held.filter _)

/-- **Run lemma** for the stimulus's part of a run. -/
theorem foldl_captureStep_waiting {dumper : Bool} (ops : List (CaptureOp κ E A O))
    {c : RunCapture (List (Item E)) (Runner κ μ S E A O)} (h : ∃ frames, Waiting dumper frames c) :
    ∃ frames, Waiting dumper frames (ops.foldl (captureStep case clock) c) := by
  induction ops generalizing c with
  | nil => exact h
  | cons op ops ih => exact ih (captureStep_waiting h op)

/-- **Run lemma** for the loop's part of a run. -/
theorem foldl_captureLoopStep_running {init : S} {dumper : Bool}
    (ops : List (CaptureLoopOp κ E A O)) {c : RunCapture (List (Item E)) (Runner κ μ S E A O)}
    (h : ∃ frames, Running case init dumper frames c) :
    ∃ frames, Running case init dumper frames (ops.foldl (captureLoopStep case clock) c) := by
  induction ops generalizing c with
  | nil => exact h
  | cons op ops ih => exact ih (captureLoopStep_running h op)

/-! ## The result -/

/-- The trace of a run is a path of the machine that starts in `init`. -/
structure TraceIsPath (case : Case κ μ S E A O) (init : S)
    (c : RunCapture (List (Item E)) (Runner κ μ S E A O)) : Prop where
  /-- The steps are numbered from 0. -/
  stepIdx : ∀ (i : Nat) (step : TransitionStep), c.pipeline.trace[i]? = some step → step.stepIdx = i
  first : ∀ step, c.pipeline.trace.head? = some step → step.fromStateName = case.getStateName init
  chain : c.pipeline.trace.IsChain fun s t => s.toStateName = t.fromStateName
  /-- The last step leads to the current state; without a step that is still `init`. -/
  last : (c.pipeline.trace.getLast?.elim (case.getStateName init) fun step => step.toStateName) =
    case.getStateName (c.pipeline.finalState case)
  sorted : (c.pipeline.trace.filter fun step => decide (0 ≤ step.pcapFrameIdx)).Pairwise
    fun s t => s.pcapFrameIdx ≤ t.pcapFrameIdx
  /-- A step with an index was caused by a call of the machine on an item of the saved frame at that
  index, which changed the state as the step says. -/
  attributed : ∀ step ∈ c.pipeline.trace, 0 ≤ step.pcapFrameIdx → ∃ frame item,
    c.saved[step.pcapFrameIdx.toNat]? = some frame ∧ item ∈ frame ∧
      ∃ m ∈ c.pipeline.moves, m.cause = .item item ∧ m.pcapFrameIdx = step.pcapFrameIdx ∧
        m.before ≠ m.after ∧ step.fromStateName = case.getStateName m.before ∧
        step.toStateName = case.getStateName m.after
  /-- With a saved pcap the machine was called on items of the saved frames alone, in their order, each
  under its frame's position. -/
  delivered : c.dumper = true →
    c.pipeline.received.Sublist (machineItems case (numbered true c.saved))

omit [DecidableEq S] in
/-- A run whose last transition was frame-driven has what drove it in its record: a saved frame, or the
step of the settled hook. -/
theorem TraceIsPath.evidence {init : S} {c : RunCapture (List (Item E)) (Runner κ μ S E A O)}
    (h : TraceIsPath case init c) (hdriven : c.pipeline.finalTransitionWasFrameDriven = true) :
    ∃ step, c.pipeline.trace.getLast? = some step ∧
      step.toStateName = case.getStateName (c.pipeline.finalState case) ∧
      (step.stepIdx = c.pipeline.settledStepIdx ∨
        ∃ frame item, c.saved[step.pcapFrameIdx.toNat]? = some frame ∧ item ∈ frame ∧
          ∃ m ∈ c.pipeline.moves, m.cause = .item item ∧ m.pcapFrameIdx = step.pcapFrameIdx) := by
  have hlast := h.last
  unfold finalTransitionWasFrameDriven at hdriven
  cases hstep : c.pipeline.trace.getLast? with
  | none =>
    rw [hstep] at hdriven
    cases hdriven
  | some step =>
    rw [hstep] at hdriven hlast
    refine ⟨step, rfl, hlast, ?_⟩
    rcases Bool.or_eq_true_iff.mp hdriven with hframe | hsettled
    · obtain ⟨frame, item, hsaved, hitem, m, hm, hcause, hidx, -⟩ :=
        h.attributed step (List.mem_of_getLast? hstep) (of_decide_eq_true hframe)
      exact .inr ⟨frame, item, hsaved, hitem, m, hm, hcause, hidx⟩
    · exact .inl (eq_of_beq hsettled)

/-- Where a selection keeps every element with an index, under that index, the indices of all
elements are among the selected ones. -/
theorem filter_map_sublist_filterMap {α β : Type} (idx : α → Int) (select : α → Option (β × Int))
    {xs : List α} (h : ∀ x ∈ xs, 0 ≤ idx x → ∃ b, select x = some (b, idx x)) :
    ((xs.map idx).filter fun i => decide (0 ≤ i)).Sublist ((xs.filterMap select).map Prod.snd) := by
  induction xs with
  | nil => exact List.Sublist.slnil
  | cons x xs ih =>
    have hrest := ih fun y hy => h y (List.mem_cons_of_mem _ hy)
    rw [List.map_cons, List.filter_cons]
    by_cases hidx : 0 ≤ idx x
    · obtain ⟨b, hb⟩ := h x List.mem_cons_self hidx
      rw [if_pos (decide_eq_true hidx), List.filterMap_cons_some hb, List.map_cons]
      exact hrest.cons_cons _
    · rw [if_neg (by simpa using hidx)]
      refine hrest.trans (List.Sublist.map _ ?_)
      rw [List.filterMap_cons]
      cases select x with
      | none => exact List.Sublist.refl _
      | some y => exact List.sublist_cons_self _ _

/-- The indices of the steps that have one are among those the machine was called under. -/
theorem Ledger.framed_sublist {init : S} {r : Runner κ μ S E A O} (h : Ledger case init r) :
    ((r.trace.map fun step => step.pcapFrameIdx).filter fun idx => decide (0 ≤ idx)).Sublist
      (r.received.map fun i => i.2) := by
  rw [stepOf_indices h.steps]
  refine List.Sublist.trans ((List.Sublist.map _ List.filter_sublist).filter _)
    (filter_map_sublist_filterMap _ _ fun m hm hidx => ?_)
  cases hcause : m.cause with
  | item i => exact ⟨i, rfl⟩
  | settled =>
    have hnone := h.unframed m hm (by simp [hcause])
    rw [hnone] at hidx
    exact absurd hidx (by decide)
  | tick =>
    have hnone := h.unframed m hm (by simp [hcause])
    rw [hnone] at hidx
    exact absurd hidx (by decide)

theorem Running.traceIsPath {init : S} {dumper : Bool} {frames : List (List (Item E))}
    {c : RunCapture (List (Item E)) (Runner κ μ S E A O)}
    (h : Running case init dumper frames c)
    (hthrows : ∀ m ∈ c.pipeline.moves, m.threw = true → m.before = m.after) : TraceIsPath case init c := by
  obtain ⟨hfirst, hchain, hlast⟩ := trace_of_movesFrom h.ledger.steps (h.ledger.path.filter hthrows)
  refine ⟨h.ledger.stepIdx, hfirst, hchain, hlast, ?_, ?_, ?_⟩
  · have hreceived : (c.pipeline.received.map fun i => i.2).Pairwise fun a b => a ≤ b := by
      rw [List.pairwise_map]
      exact (numbered_sorted dumper frames).sublist (h.received.trans List.filter_sublist)
    have hidx := hreceived.sublist h.ledger.framed_sublist
    rw [List.filter_map, List.pairwise_map] at hidx
    exact hidx
  · intro step hstep hidx
    obtain ⟨m, hm, hof⟩ := exists_stepOf h.ledger.steps hstep
    obtain ⟨hmoves, hrecorded⟩ := List.mem_filter.1 hm
    have hframed : ∃ item, m.cause = .item item := by
      by_contra hno
      have hnone := h.ledger.unframed m hmoves fun i hi => hno ⟨i, hi⟩
      rw [hof.pcapFrameIdx, hnone] at hidx
      exact absurd hidx (by decide)
    obtain ⟨item, hitem⟩ := hframed
    have hin : (item, m.pcapFrameIdx) ∈ c.pipeline.received :=
      List.mem_filterMap.2 ⟨m, hmoves, by rw [hitem]⟩
    obtain ⟨k, frame, hframe, hmem, hk⟩ := mem_numbered (List.mem_filter.1 (h.received.subset hin)).1
    rw [hof.pcapFrameIdx] at hidx ⊢
    cases dumper with
    | false =>
      rw [hk, if_neg Bool.false_ne_true] at hidx
      exact absurd hidx (by decide)
    | true =>
      refine ⟨frame, item, ?_, hmem, m, hmoves, hitem, rfl, (Move.recorded_iff.1 hrecorded).2,
        hof.fromState, hof.toState⟩
      rw [hk, h.counted.saved]
      exact hframe
  · intro hdumper
    have htrue : dumper = true := h.counted.saves.symm.trans hdumper
    subst htrue
    rw [h.counted.saved]
    exact h.received

/-- **The trace is a path of the machine**: for every case, every run of drains, stimulus actions and
ticks around one `start`, with or without a saved pcap, in which no call that throws changes the state. -/
theorem trace_isPath (case : Case κ μ S E A O) (clock : Nat → Int) (dlt : Nat) (dlt2 : Option Nat)
    (dumper : Bool) (captured : κ) (sm : μ) (before : List (CaptureOp κ E A O))
    (realtimeNowUs : Int) (after : List (CaptureLoopOp κ E A O))
    (hthrows : ∀ m ∈ (harnessRun case clock (freshCapture dlt dlt2 dumper captured sm) before realtimeNowUs
      after).pipeline.moves, m.threw = true → m.before = m.after) :
    TraceIsPath case
      (((before.foldl (captureStep case clock)
        (freshCapture dlt dlt2 dumper captured sm)).pipeline.initialized case clock
          realtimeNowUs).finalState case)
      (harnessRun case clock (freshCapture dlt dlt2 dumper captured sm) before realtimeNowUs
        after) := by
  have hfresh : Waiting dumper []
      (freshCapture dlt dlt2 dumper captured sm : RunCapture (List (Item E)) (Runner κ μ S E A O)) :=
    ⟨⟨rfl, by cases dumper <;> rfl, by cases dumper <;> rfl⟩, rfl, rfl, rfl, List.Sublist.refl _⟩
  obtain ⟨frames, hwaiting⟩ :=
    @foldl_captureStep_waiting κ μ S E A O _ case clock dumper before _ ⟨[], hfresh⟩
  have hstarted := @Waiting.start κ μ S E A O _ case clock dumper frames _ hwaiting realtimeNowUs
  unfold harnessRun at hthrows ⊢
  dsimp only at hthrows ⊢
  split at hthrows
  case isTrue hthrown =>
    rw [if_pos hthrown]
    exact hstarted.traceIsPath hthrows
  case isFalse hthrown =>
    rw [if_neg hthrown]
    obtain ⟨_, hrunning⟩ :=
      @foldl_captureLoopStep_running κ μ S E A O _ case clock _ dumper after _ ⟨frames, hstarted⟩
    exact hrunning.traceIsPath hthrows

/-- The loop drains one frame with one event. -/
def drainsEvent (ev : Nat) : CaptureLoopOp Unit Nat Unit Unit :=
  .capture (.drain ⟨false, ⟨[[.event ev]], .count⟩, ⟨[], .count⟩⟩)

/-- A saved frame moves the machine. -/
theorem trace_isPath_two_frames :
    TraceIsPath addingCase 0 (harnessRun addingCase (fun n => n) (freshCapture 1 none true () 0) [] 0
      [drainsEvent 1, drainsEvent 2]) :=
  trace_isPath addingCase (fun n => n) 1 none true () 0 [] 0 [drainsEvent 1, drainsEvent 2] (by decide)

/-- A frame moves the machine and throws: the trace is empty, and the machine is not where it began. -/
theorem trace_not_path_thrown :
    ¬ TraceIsPath addingCase 0 (harnessRun addingCase (fun n => n) (freshCapture 1 none true () 0) [] 0
      [drainsEvent 7]) := by
  intro h
  exact absurd h.last (by decide)

end Runner

end Tc8Harness.Sce
