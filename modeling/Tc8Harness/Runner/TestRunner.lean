import Mathlib

/-!
# The test runner

`src/sce_integration/include/sce_integration/test_runner.h` with the facilities it holds
(`stimulus_observation.cpp`, `adopted_services.h`): one case's machine, the frames and stimulus markers
it is handed, what an awaiting stimulus holds back until `start`, and the trace of the machine's
transitions.

A case is a `Case`: its generated machine `μ`, its captured context `κ` and its callbacks. Only
`dispatch`, the two stimulus hooks, `smInitialize` and `smTick` are given the machine; an action (of a
scheduled step, a state entry or a reaction) sees the captured context alone, as the source passes it.
Actions are named by a type `A`, so that what an action registers can hold further actions.

The code that runs on a frame may throw: `dispatch`, the hooks, a reaction's predicate or its action, an
adopted observer. An exception (`thrown`) skips what is left of the call it leaves. Out of a frame it ends
in `PacketPipeline::processFrame`, which counts it and goes on; nothing catches it out of `start`. An
exception in `tick` or in the machine's initialisation is the end of the process, and the calls made there
have no result for it.

`moves` and `notified` record what the source does and does not keep: each call that was given the
machine, with the index slot in effect, and each notification of an adopted observer.
-/

namespace Tc8Harness.Sce

/-- What a step of the case may register with the runner while it runs. -/
inductive Registration (E A O : Type) where
  | schedule (delayUs : Int) (action : A)
  | scheduleAfterStateEntry (stateId : Int) (action : A)
  /-- A predicate has no value on what it throws on. -/
  | reactToObservation (name : String) (predicate : E → Option Bool) (boundUs : Int) (action : A)
  | adoptObservingService (service : O)

/-- What a call that was given the machine left. -/
structure Called (κ μ : Type) where
  captured : κ
  sm : μ
  threw : Bool := false

/-- What a reaction's action left and had registered. -/
structure Reacted (κ E A O : Type) where
  captured : κ
  registered : List (Registration E A O) := []
  threw : Bool := false

/-- One case: traits, generated machine and callbacks. -/
structure Case (κ μ S E A O : Type) where
  smInitialize : κ → μ → κ × μ
  getCurrentState : μ → S
  getStateName : S → String
  stateId : S → Int
  isFinalState : S → Bool
  dispatch : κ → μ → E → Called κ μ
  eventNameForFrame : E → String
  /-- `none` when the machine has no such hook. -/
  onStimulusApplied : Option (κ → μ → String → Called κ μ)
  onStimulusSettled : Option (κ → μ → Called κ μ)
  smTick : κ → μ → κ × μ
  perform : A → κ → κ × List (Registration E A O)
  react : A → κ → E → Reacted κ E A O
  /-- An adopted observer is told of a frame; whether it throws. -/
  onCapturedFrame : O → E → O × Bool
  setListenWindowOpen : κ → Int → κ
  capturedJson : κ → String

/-- A step of the evidence ledger. -/
structure TransitionStep where
  stepIdx : Int
  eventName : String
  fromStateName : String
  toStateName : String
  pcapFrameIdx : Int
  steadyUs : Int
  capturedJson : String

/-- What the capture hands to the runner. -/
inductive Item (E : Type) where
  | event (ev : E)
  | marker (name : String)
  deriving DecidableEq

structure Held (E : Type) where
  item : Item E
  pcapFrameIdx : Int

structure ScheduledStimulus (A : Type) where
  fireAt : Int
  action : A

structure StateEntryObserver (A : Type) where
  stateId : Int
  action : A

/-- A pending reaction. -/
structure Pending (E A : Type) where
  name : String
  predicate : E → Option Bool
  registered : Int
  deadline : Int
  action : A

/-- What made a call that was given the machine. -/
inductive Cause (E : Type) where
  | item (i : Item E)
  | settled
  | tick
  deriving DecidableEq

/-- One call that was given the machine: the index in effect, the state before and after, and whether it
threw. -/
structure Move (E S : Type) where
  cause : Cause E
  pcapFrameIdx : Int
  before : S
  after : S
  threw : Bool := false

structure Runner (κ μ S E A O : Type) where
  captured : κ
  sm : μ
  stimQueue : List (ScheduledStimulus A) := []
  stateEntryObservers : List (StateEntryObserver A) := []
  lastStateId : Int := -1
  settledStepIdx : Int := -1
  held : List (Held E) := []
  reactions : List (Pending E A) := []
  adopted : List O := []
  unperformed : List String := []
  started : Bool := false
  stimulusReturnedTsUs : Int := 0
  trace : List TransitionStep := []
  nextPcapFrameIdx : Int := -1
  clockReads : Nat := 0
  /-- An exception is in flight. -/
  thrown : Bool := false
  moves : List (Move E S) := []
  notified : List (Nat × E) := []

namespace Runner

variable {κ μ S E A O : Type}

/-- The next statement, unless an exception is in flight. -/
def andThen (f : Runner κ μ S E A O → Runner κ μ S E A O) (r : Runner κ μ S E A O) : Runner κ μ S E A O :=
  if r.thrown then r else f r

/-! ## Registrations and the clock -/

/-- One reading of the steady clock; `clock` is the sequence of its readings. -/
def steadyNowUs (clock : Nat → Int) (r : Runner κ μ S E A O) : Int × Runner κ μ S E A O :=
  (clock r.clockReads, { r with clockReads := r.clockReads + 1 })

def register (clock : Nat → Int) (r : Runner κ μ S E A O) :
    Registration E A O → Runner κ μ S E A O
  | .schedule delayUs action =>
    let (now, r) := r.steadyNowUs clock
    { r with stimQueue := r.stimQueue ++ [⟨now + delayUs, action⟩] }
  | .scheduleAfterStateEntry stateId action =>
    { r with stateEntryObservers := r.stateEntryObservers ++ [⟨stateId, action⟩] }
  | .reactToObservation name predicate boundUs action =>
    let (now, r) := r.steadyNowUs clock
    { r with reactions := r.reactions ++ [⟨name, predicate, now, now + boundUs, action⟩] }
  | .adoptObservingService service => { r with adopted := r.adopted ++ [service] }

/-- An action ran: the captured context it left, and what it registered. -/
def afterAction (clock : Nat → Int) (r : Runner κ μ S E A O)
    (result : κ × List (Registration E A O)) : Runner κ μ S E A O :=
  result.2.foldl (register clock) { r with captured := result.1 }

section

variable [DecidableEq S] (case : Case κ μ S E A O) (clock : Nat → Int)

/-! ## The machine and its trace -/

/-- The machine's current state. -/
def finalState (r : Runner κ μ S E A O) : S := case.getCurrentState r.sm

def isDone (r : Runner κ μ S E A O) : Bool := case.isFinalState (r.finalState case)

/-- `recordTransition`, without the live stream. -/
def recordTransition (r : Runner κ μ S E A O) (before after : S) (eventName : String)
    (pcapFrameIdx : Int) : Runner κ μ S E A O :=
  let (now, r) := r.steadyNowUs clock
  { r with
    trace := r.trace ++
      [{ stepIdx := r.trace.length
         eventName := eventName
         fromStateName := case.getStateName before
         toStateName := case.getStateName after
         pcapFrameIdx := pcapFrameIdx
         steadyUs := now
         capturedJson := case.capturedJson r.captured }] }

/-- What every call that is given the machine has in common: sample the state, call, sample again, and
record the transition the call caused. An exception of the call leaves it unrecorded. -/
def drive (cause : Cause E) (call : κ → μ → Called κ μ) (eventName : String) (pcapFrameIdx : Int)
    (r : Runner κ μ S E A O) : Runner κ μ S E A O :=
  let before := r.finalState case
  let called := call r.captured r.sm
  let r := { r with captured := called.captured, sm := called.sm, thrown := called.threw }
  let after := r.finalState case
  let r := { r with moves := r.moves ++ [⟨cause, pcapFrameIdx, before, after, called.threw⟩] }
  if !called.threw ∧ before ≠ after then r.recordTransition case clock before after eventName pcapFrameIdx
  else r

def dispatchToMachine (ev : E) (r : Runner κ μ S E A O) : Runner κ μ S E A O :=
  r.drive case clock (.item (.event ev)) (fun captured sm => case.dispatch captured sm ev)
    (case.eventNameForFrame ev) r.nextPcapFrameIdx

def applyStimulusMarker (name : String) (r : Runner κ μ S E A O) : Runner κ μ S E A O :=
  match case.onStimulusApplied with
  | none => r
  | some hook =>
    r.drive case clock (.item (.marker name)) (fun captured sm => hook captured sm name)
      "stimulus_applied" r.nextPcapFrameIdx

/-- `settleStimulus`: the step it causes, if any, is remembered by its index. -/
def settleStimulus (r : Runner κ μ S E A O) : Runner κ μ S E A O :=
  match case.onStimulusSettled with
  | none => r
  | some hook =>
    if r.isDone case then r
    else
      let before := r.finalState case
      let stepIdx := r.trace.length
      let r := r.drive case clock .settled hook "stimulus_settled" (-1)
      if !r.thrown ∧ before ≠ r.finalState case then { r with settledStepIdx := stepIdx } else r

/-! ## Observers and reactions -/

/-- What telling observers of a frame leaves: the observers, who was told, and whether one threw. -/
structure FannedOut (E O : Type) where
  adopted : List O := []
  told : List (Nat × E) := []
  threw : Bool := false

/-- The loop over the observers, the first of them at position `i`. -/
def fanOutFrom (ev : E) : Nat → List O → FannedOut E O
  | _, [] => {}
  | i, o :: rest =>
    match case.onCapturedFrame o ev with
    | (o, true) => ⟨o :: rest, [(i, ev)], true⟩
    | (o, false) =>
      let out := fanOutFrom ev (i + 1) rest
      ⟨o :: out.adopted, (i, ev) :: out.told, out.threw⟩

/-- `AdoptedServices::fanOutCapturedFrame`: every adopted observer, by its position. -/
def fanOutCapturedFrame (ev : E) (r : Runner κ μ S E A O) : Runner κ μ S E A O :=
  let out := fanOutFrom case ev 0 r.adopted
  { r with adopted := out.adopted, notified := r.notified ++ out.told, thrown := out.threw }

/-- What a scan of the reactions leaves: those the frame satisfies, the others, and whether a predicate
threw. -/
structure Scanned (E A : Type) where
  due : List (Pending E A) := []
  rest : List (Pending E A) := []
  threw : Bool := false

def scanReactions (ev : E) : List (Pending E A) → Scanned E A
  | [] => {}
  | p :: rest =>
    match p.predicate ev with
    | none => ⟨[], p :: rest, true⟩
    | some true => let s := scanReactions ev rest; { s with due := p :: s.due }
    | some false => let s := scanReactions ev rest; { s with rest := p :: s.rest }

/-- The action of a reaction. -/
def act (ev : E) (p : Pending E A) (r : Runner κ μ S E A O) : Runner κ μ S E A O :=
  let reacted := case.react p.action r.captured ev
  { r.afterAction clock (reacted.captured, reacted.registered) with thrown := reacted.threw }

/-- `ObservationReactions::onFrame`: the reactions the frame satisfies are taken out first, then each
acts. An exception loses those that were taken out and have not acted. -/
def reactionsOnFrame (ev : E) (r : Runner κ μ S E A O) : Runner κ μ S E A O :=
  if r.reactions.isEmpty then r
  else
    let scanned := scanReactions ev r.reactions
    let r := { r with reactions := scanned.rest }
    if scanned.threw then { r with thrown := true }
    else
      let (_, r) := r.steadyNowUs clock
      scanned.due.foldl (fun r p => r.andThen (act case clock ev p)) r

/-- `ObservationReactions::expire`. -/
def reactionsExpire (r : Runner κ μ S E A O) : Runner κ μ S E A O :=
  if r.reactions.isEmpty then r
  else
    let (now, r) := r.steadyNowUs clock
    { r with
      unperformed := r.unperformed ++
        (r.reactions.filter fun p => decide (now ≥ p.deadline)).map fun p => p.name
      reactions := r.reactions.filter fun p => !decide (now ≥ p.deadline) }

def drainDueStimulus (r : Runner κ μ S E A O) : Runner κ μ S E A O :=
  if r.stimQueue.isEmpty then r
  else
    let (now, r) := r.steadyNowUs clock
    let due := r.stimQueue.filter fun s => decide (s.fireAt ≤ now)
    let r := { r with stimQueue := r.stimQueue.filter fun s => !decide (s.fireAt ≤ now) }
    due.foldl (fun r s => r.afterAction clock (case.perform s.action r.captured)) r

def drainStateEntryObservers (r : Runner κ μ S E A O) : Runner κ μ S E A O :=
  if r.stateEntryObservers.isEmpty then r
  else
    let nowId := case.stateId (r.finalState case)
    if nowId = r.lastStateId then r
    else
      let due := r.stateEntryObservers.filter fun o => o.stateId == nowId
      let r :=
        { r with
          lastStateId := nowId
          stateEntryObservers := r.stateEntryObservers.filter fun o => !(o.stateId == nowId) }
      due.foldl (fun r o => r.afterAction clock (case.perform o.action r.captured)) r

/-! ## What the capture and the loop call -/

def setNextPcapFrameIdx (idx : Int) (r : Runner κ μ S E A O) : Runner κ μ S E A O :=
  { r with nextPcapFrameIdx := idx }

/-- Hold a drained item for the machine (`StimulusObservation::hold`, `holdMarker`). -/
def hold (item : Item E) (r : Runner κ μ S E A O) : Runner κ μ S E A O :=
  { r with held := r.held ++ [⟨item, r.nextPcapFrameIdx⟩] }

def onCaptured (ev : E) (r : Runner κ μ S E A O) : Runner κ μ S E A O :=
  if !r.started then (r.hold (.event ev)).fanOutCapturedFrame case ev
  else
    ((r.dispatchToMachine case clock ev).andThen (reactionsOnFrame case clock ev)).andThen
      (fanOutCapturedFrame case ev)

def onStimulusApplied (name : String) (r : Runner κ μ S E A O) : Runner κ μ S E A O :=
  if !r.started then r.hold (.marker name) else r.applyStimulusMarker case clock name

/-- The machine's share of a tick. -/
def pumpTimers (r : Runner κ μ S E A O) : Runner κ μ S E A O :=
  r.drive case clock .tick (fun captured sm => ⟨(case.smTick captured sm).1, (case.smTick captured sm).2, false⟩)
    "deadline_exceeded" (-1)

def tick (r : Runner κ μ S E A O) : Runner κ μ S E A O :=
  let r := (r.drainDueStimulus case clock).reactionsExpire clock
  (r.pumpTimers case clock).drainStateEntryObservers case clock

/-- One held item, handed to the machine under its own index. -/
def replay (h : Held E) (r : Runner κ μ S E A O) : Runner κ μ S E A O :=
  let r := r.setNextPcapFrameIdx h.pcapFrameIdx
  match h.item with
  | .event ev => (r.dispatchToMachine case clock ev).andThen (reactionsOnFrame case clock ev)
  | .marker name => r.applyStimulusMarker case clock name

/-- `StimulusObservation::release` with the runner's sink. -/
def release (r : Runner κ μ S E A O) : Runner κ μ S E A O :=
  (r.held.foldl (fun r h => r.andThen (replay case clock h)) r).andThen fun r => { r with held := [] }

/-- What `start` does before it delivers the held items. `realtimeNowUs` is the wall clock, read only
when no stimulus has returned. -/
def initialized (realtimeNowUs : Int) (r : Runner κ μ S E A O) : Runner κ μ S E A O :=
  let (captured, sm) := case.smInitialize r.captured r.sm
  let openTs := if r.stimulusReturnedTsUs ≠ 0 then r.stimulusReturnedTsUs else realtimeNowUs
  let r := { r with captured := case.setListenWindowOpen captured openTs, sm := sm }
  let r := { r with lastStateId := case.stateId (r.finalState case) }
  let (_, r) := r.steadyNowUs clock
  { r with started := true }

/-- `TestRunner::start`. -/
def start (realtimeNowUs : Int) (r : Runner κ μ S E A O) : Runner κ μ S E A O :=
  (((r.initialized case clock realtimeNowUs).release case clock).andThen
    (setNextPcapFrameIdx (-1))).andThen (settleStimulus case clock)

/-- One item of a frame, as the pipeline's listeners hand it on. -/
def onItem (i : Item E) (r : Runner κ μ S E A O) : Runner κ μ S E A O :=
  match i with
  | .event ev => r.onCaptured case clock ev
  | .marker name => r.onStimulusApplied case clock name

/-- One captured frame: the capture sets the index slot, then the pipeline fans the frame out into
items. -/
def handItems (idx : Int) (items : List (Item E)) (r : Runner κ μ S E A O) : Runner κ μ S E A O :=
  items.foldl (fun r i => r.andThen (onItem case clock i)) (r.setNextPcapFrameIdx idx)

/-- `PacketPipeline::processFrame` as the runner sees it: what an item throws ends the frame, and goes no
further. -/
def onFrame (idx : Int) (items : List (Item E)) (r : Runner κ μ S E A O) : Runner κ μ S E A O :=
  { r.handItems case clock idx items with thrown := false }

/-! ## What the verdict reads -/

/-- `pcapFrameIdx ≥ 0`: a frame the saved pcap retained drove the step. -/
def finalTransitionWasFrameDriven (r : Runner κ μ S E A O) : Bool :=
  match r.trace.getLast? with
  | none => false
  | some step => decide (step.pcapFrameIdx ≥ 0) || step.stepIdx == r.settledStepIdx

end

end Runner

end Tc8Harness.Sce
