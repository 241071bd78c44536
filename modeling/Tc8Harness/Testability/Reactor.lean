import Mathlib
import Std.Data.TreeMap.Lemmas

/-!
# The reactor's tables

`include/tc8/testability/reactor.h`: the timers and the descriptor watches of the event loop, with the
operations a client calls on the loop. A handler is a value of `α` that says which one it is; running
it is the client's business. Handles are 64-bit counters in the source and do not wrap here.
-/

namespace Tc8Harness.Testability

/-- The handles that are never given out. -/
def kNoWatch : Nat := 0
def kNoTimer : Nat := 0

structure Timer (α : Type) where
  next : Int
  period : Int
  fn : α
  periodic : Bool
  deriving DecidableEq, Repr

structure Watch (α : Type) where
  fd : Int
  fn : α
  onWrite : Bool
  deriving DecidableEq, Repr

structure Reactor (α : Type) where
  timers : Std.TreeMap Nat (Timer α) := ∅
  nextTimerId : Nat := 1
  watches : Std.TreeMap Nat (Watch α) := ∅
  nextWatchId : Nat := 1

namespace Reactor

variable {α : Type} (r : Reactor α)

/-- The common body of `addWatch` and `addWriteWatch`. -/
def addWatchFor (fd : Int) (fn : α) (onWrite : Bool) : Reactor α × Nat :=
  if fd < 0 then (r, kNoWatch)
  else
    ({ r with
        watches := r.watches.insert r.nextWatchId ⟨fd, fn, onWrite⟩
        nextWatchId := r.nextWatchId + 1 },
      r.nextWatchId)

def addWatch (fd : Int) (fn : α) : Reactor α × Nat := r.addWatchFor fd fn false

def addWriteWatch (fd : Int) (fn : α) : Reactor α × Nat := r.addWatchFor fd fn true

def removeWatch (id : Nat) : Reactor α := { r with watches := r.watches.erase id }

def arm (now period : Int) (fn : α) (periodic : Bool) : Reactor α × Nat :=
  ({ r with
      timers := r.timers.insert r.nextTimerId ⟨now + period, period, fn, periodic⟩
      nextTimerId := r.nextTimerId + 1 },
    r.nextTimerId)

def armOnce (now delay : Int) (fn : α) : Reactor α × Nat := r.arm now delay fn false

def cancel (id : Nat) : Reactor α := { r with timers := r.timers.erase id }

/-- What `runOnce` does to a due timer before it runs the handler: a periodic one is re-armed, the
other is gone. -/
def expire (now : Int) (id : Nat) : Reactor α :=
  match r.timers[id]? with
  | none => r
  | some t =>
    if t.periodic then { r with timers := r.timers.insert id { t with next := now + t.period } }
    else { r with timers := r.timers.erase id }

end Reactor

end Tc8Harness.Testability
