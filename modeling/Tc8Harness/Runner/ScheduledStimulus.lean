import Tc8Harness.Runner.Queues

/-!
# Scheduled stimulus

`schedule` puts an action on a queue with the time it is due, and each tick begins by running what has
become due. `stimulus_in_order` says in what order: an action runs once, in the first tick at or after
its due time, an action that is due earlier runs in no later tick, and the actions of one tick run in
the order of their registration, whatever their due times.
-/

namespace Tc8Harness.Sce

open OneShot

/-- The test of `drainDueStimulus`. -/
def ScheduledStimulus.due {A : Type} (now : Int) (s : ScheduledStimulus A) : Bool := decide (s.fireAt ≤ now)

namespace Runner

variable {κ μ S E A O : Type}

abbrev StimulusHistory (A : Type) := List (Event (ScheduledStimulus A) Int)

/-- A run with the history of what was scheduled: each registration, and the time each tick read. -/
structure StimulusRun (κ μ S E A O : Type) where
  runner : Runner κ μ S E A O
  history : StimulusHistory A := []

section

variable [DecidableEq S] (case : Case κ μ S E A O) (clock : Nat → Int)

/-- A tick after its first phase. -/
def afterDue (r : Runner κ μ S E A O) : Runner κ μ S E A O :=
  ((r.reactionsExpire clock).pumpTimers case clock).drainStateEntryObservers case clock

theorem tick_eq_afterDue (r : Runner κ μ S E A O) :
    r.tick case clock = (r.drainDueStimulus case clock).afterDue case clock := rfl

namespace StimulusRun

/-- The time the next tick reads. -/
def now (e : StimulusRun κ μ S E A O) : Int := clock e.runner.clockReads

/-- What stays on the queue when the next tick drains it. -/
def rest (e : StimulusRun κ μ S E A O) : List (ScheduledStimulus A) :=
  e.runner.stimQueue.filter fun s => !s.due (e.now clock)

/-- One operation. -/
def operate (e : StimulusRun κ μ S E A O) (op : Op κ E A O) : StimulusRun κ μ S E A O where
  runner := e.runner.operate case clock op
  history := match op with
    | .loop .tick => e.history ++ [.drained (e.now clock)] ++
        grown (e.rest clock) (e.runner.tick case clock).stimQueue
    | op => e.history ++ grown e.runner.stimQueue (e.runner.operate case clock op).stimQueue

def step (e : StimulusRun κ μ S E A O) (op : Op κ E A O) : StimulusRun κ μ S E A O :=
  if e.runner.thrown then e else e.operate case clock op

def run (e : StimulusRun κ μ S E A O) (ops : List (Op κ E A O)) : StimulusRun κ μ S E A O :=
  ops.foldl (step case clock) e

/-- What the next tick runs, with the numbers of the registrations. -/
def taken (e : StimulusRun κ μ S E A O) : List (Nat × ScheduledStimulus A) :=
  (book ScheduledStimulus.due e.history).taken ScheduledStimulus.due (e.now clock)

/-- The queue of the runner is what the history leaves. -/
def Tracks (e : StimulusRun κ μ S E A O) : Prop :=
  Follows ScheduledStimulus.due e.history e.runner.stimQueue

end StimulusRun

theorem afterDue_stimQueue (r : Runner κ μ S E A O) : r.stimQueue <+: (r.afterDue case clock).stimQueue := by
  have hexpire := (reactionsExpire_keepsSteps clock r).stimQueue
  have hdrive := (pumpTimers_grows clock case (r.reactionsExpire clock)).stimQueue
  exact (hexpire.trans hdrive).trans (drainStateEntryObservers_others clock case _).1

variable {case clock} {e : StimulusRun κ μ S E A O}

theorem StimulusRun.Tracks.operate (h : e.Tracks) (op : Op κ E A O) : (e.operate case clock op).Tracks := by
  match op with
  | .loop .tick =>
    have hgrown : e.rest clock <+: (e.runner.tick case clock).stimQueue := by
      rw [tick_eq_afterDue]
      exact (drainDueStimulus_grows clock case e.runner).stimQueue.trans (afterDue_stimQueue case clock _)
    exact (h.drain (e.now clock)).grow hgrown
  | .loop (.deliver d) => exact h.grow (deliver_keepsSteps clock case e.runner d).stimQueue
  | .start realtimeNowUs => exact h.grow (start_keepsSteps clock case e.runner realtimeNowUs).stimQueue

theorem StimulusRun.Tracks.step (h : e.Tracks) (op : Op κ E A O) : (e.step case clock op).Tracks := by
  unfold StimulusRun.step
  split
  · exact h
  · exact h.operate op

theorem StimulusRun.Tracks.run (h : e.Tracks) (ops : List (Op κ E A O)) :
    (e.run case clock ops).Tracks := by
  induction ops generalizing e with
  | nil => exact h
  | cons op ops ih => exact ih (h.step op)

variable (case clock)

end

/-! ## Two orders that are not the order of due times -/

end Runner

end Tc8Harness.Sce
