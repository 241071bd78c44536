import Tc8Harness.Testability.Reactor
import Tc8Harness.Lib.TreeTable

/-!
# The reactor's loop

`Reactor::runOnce` of `include/tc8/testability/reactor.h`: the posted tasks are run, then either one
due timer fires, or the loop waits in the multiplexer and runs the handlers of the watches that are
ready. What a handler or a task does is arbitrary: from the reactor and the client's state at the call
it makes a list of calls on the reactor. Instants and periods are in nanoseconds, the clock's own unit.
-/

namespace Tc8Harness.Testability

/-- A call on the reactor from the loop's own thread. `now` is what the clock reads in `arm`. A `post`
made here runs its task in place, so it is no call of its own. -/
inductive LoopCall (α : Type) where
  | addWatch (fd : Int) (fn : α)
  | addWriteWatch (fd : Int) (fn : α)
  | removeWatch (id : Nat)
  | arm (now period : Int) (fn : α) (periodic : Bool)
  | cancel (id : Nat)
  | close

/-- What the loop did: the handlers it ran, each with the reactor as it stood at that moment, and the
calls that register a watch or take a timer away. -/
inductive LoopEvent (α : Type) where
  | timer (id : Nat) (t : Timer α) (at_ : Reactor α)
  | watch (id : Nat) (fn : α) (at_ : Reactor α)
  | added (id : Nat)
  | cancelled (id : Nat)
  | closed

namespace LoopEvent

variable {α : Type}

/-- The timer whose handler was run. -/
def timerId : LoopEvent α → Option Nat
  | .timer id _ _ => some id
  | _ => none

/-- The watch whose handler was run. -/
def watchId : LoopEvent α → Option Nat
  | .watch id _ _ => some id
  | _ => none

end LoopEvent

structure Loop (α σ : Type) where
  reactor : Reactor α := {}
  running : Bool := false
  /-- `pollFd()` of the waker, if the multiplexer has one. -/
  waker : Option Int := none
  client : σ
  log : List (LoopEvent α) := []

/-- A task or a handler: the calls it makes, and what it leaves of the client's state. -/
def Task (α σ : Type) : Type := Reactor α → σ → List (LoopCall α) × σ

/-- The descriptors that are ready when a wait ends. -/
structure Ready where
  readable : Int → Bool
  writable : Int → Bool

/-- What a turn of the loop meets: the tasks in the order `drainTasks` pops them, the clock, and what
is ready after a wait of at most so many milliseconds. -/
structure Turn (α σ : Type) where
  tasks : List (Task α σ)
  now : Int
  maxWaitMs : Int
  ready : Int → Ready

namespace Loop

variable {α σ : Type}

def openLoop (waker : Option Int) (client : σ) : Loop α σ :=
  { running := true, waker := waker, client := client }

/-- `resetLoopState`. -/
def resetLoopState (l : Loop α σ) : Loop α σ :=
  { l with reactor := { l.reactor with timers := ∅, watches := ∅ }, running := false }

def addWatchFor (l : Loop α σ) (fd : Int) (fn : α) (onWrite : Bool) : Loop α σ :=
  { l with
    reactor := (l.reactor.addWatchFor fd fn onWrite).1
    log := l.log ++ if fd < 0 then [] else [.added (l.reactor.addWatchFor fd fn onWrite).2] }

def call (l : Loop α σ) : LoopCall α → Loop α σ
  | .addWatch fd fn => l.addWatchFor fd fn false
  | .addWriteWatch fd fn => l.addWatchFor fd fn true
  | .removeWatch id => { l with reactor := l.reactor.removeWatch id }
  | .arm now period fn periodic => { l with reactor := (l.reactor.arm now period fn periodic).1 }
  | .cancel id => { l with reactor := l.reactor.cancel id, log := l.log ++ [.cancelled id] }
  | .close =>
    if !l.running then l
    else { l.resetLoopState with waker := none, log := l.log ++ [.closed] }

/-- A task or a handler runs to completion. -/
def perform (l : Loop α σ) (t : Task α σ) : Loop α σ :=
  let done := t l.reactor l.client
  done.1.foldl call { l with client := done.2 }

def drainTasks (l : Loop α σ) (tasks : List (Task α σ)) : Loop α σ := tasks.foldl perform l

/-- The scan of the timers in the order of their handles. It stops at the first that is due, and else
notes the next due time. -/
def scanTimers (now : Int) : List (Nat × Timer α) → Option Int → Option (Nat × Timer α) × Option Int
  | [], earliest => (none, earliest)
  | kv :: rest, earliest =>
    if kv.2.next ≤ now then (some kv, earliest)
    else
      let earliest := match earliest with
        | none => some kv.2.next
        | some e => if kv.2.next < e then some kv.2.next else some e
      scanTimers now rest earliest

def nanosPerMilli : Int := 1000000

/-- `std::chrono::ceil<std::chrono::milliseconds>`. -/
def ceilMillis (d : Int) : Int := -((-d) / nanosPerMilli)

def pollTimeout (maxWaitMs now : Int) : Option Int → Int
  | none => maxWaitMs
  | some earliest =>
    let rem := ceilMillis (earliest - now)
    let untilDue := if rem < 0 then 0 else rem.bmod (2 ^ 32)
    if untilDue < maxWaitMs then untilDue else maxWaitMs

/-- The descriptors of the watches of one kind, in the order of their handles. -/
def watchedFds (l : Loop α σ) (onWrite : Bool) : List Int :=
  (l.reactor.watches.toList.filter fun kv => kv.2.onWrite == onWrite).map fun kv => kv.2.fd

def pollFds (l : Loop α σ) : List Int := l.waker.toList ++ l.watchedFds false

def pollWriteFds (l : Loop α σ) : List Int := l.watchedFds true

/-- The multiplexer's answer for one of its sets: each descriptor that is ready, as often as it was
asked about. -/
def poll (ready : Int → Bool) (fds : List Int) : List Int := fds.filter fun fd => 0 ≤ fd && ready fd

/-- The handles of the watches of one kind on a descriptor. -/
def watchersOf (l : Loop α σ) (onWrite : Bool) (fd : Int) : List Nat :=
  (l.reactor.watches.toList.filter fun kv => kv.2.fd == fd && kv.2.onWrite == onWrite).map Prod.fst

/-- The list `fire_`. The wake descriptor is drained and never dispatched. -/
def fireIds (l : Loop α σ) (ready : Ready) : List Nat :=
  ((poll ready.readable l.pollFds).filter fun fd => l.waker != some fd).flatMap (l.watchersOf false) ++
    (poll ready.writable l.pollWriteFds).flatMap (l.watchersOf true)

/-- The handlers of the fire list, each looked up again when its turn comes. -/
def dispatch (handlers : α → Task α σ) : Loop α σ → List Nat → Loop α σ
  | l, [] => l
  | l, id :: rest =>
    match l.reactor.watches[id]? with
    | none => dispatch handlers l rest
    | some w =>
      dispatch handlers
        (perform { l with log := l.log ++ [.watch id w.fn l.reactor] } (handlers w.fn)) rest

/-- A due timer fires. -/
def fireTimer (handlers : α → Task α σ) (l : Loop α σ) (now : Int) (id : Nat) (t : Timer α) :
    Loop α σ :=
  perform
    { l with reactor := l.reactor.expire now id, log := l.log ++ [.timer id t l.reactor] }
    (handlers t.fn)

/-- What follows the posted tasks in `runOnce`, in a loop that runs. -/
def turn (handlers : α → Task α σ) (e : Turn α σ) (l : Loop α σ) : Loop α σ × Bool :=
  match scanTimers e.now l.reactor.timers.toList none with
  | (some (id, t), _) => (fireTimer handlers l e.now id t, true)
  | (none, earliest) =>
    let served := dispatch handlers l (l.fireIds (e.ready (pollTimeout e.maxWaitMs e.now earliest)))
    (served, served.running)

def runOnce (handlers : α → Task α σ) (e : Turn α σ) (l : Loop α σ) : Loop α σ × Bool :=
  let drained := l.drainTasks e.tasks
  if drained.running then turn handlers e drained else (drained, false)

/-- What the loop did in a turn once the posted tasks were run. -/
def turnEvents (handlers : α → Task α σ) (e : Turn α σ) (l : Loop α σ) : List (LoopEvent α) :=
  (runOnce handlers e l).1.log.drop (l.drainTasks e.tasks).log.length

/-- The loops that opening, calls between the turns and turns lead to. -/
inductive Reachable : Loop α σ → Prop
  | opened (waker : Option Int) (client : σ) : Reachable (openLoop waker client)
  | called {l : Loop α σ} (h : Reachable l) (c : LoopCall α) : Reachable (l.call c)
  | turned {l : Loop α σ} (h : Reachable l) (handlers : α → Task α σ) (e : Turn α σ) :
      Reachable (runOnce handlers e l).1

/-! ## What a turn keeps -/

/-- A property of the loop that everything a turn is made of keeps. -/
structure Stable (P : Loop α σ → Prop) : Prop where
  client : ∀ l c, P l → P { l with client := c }
  call : ∀ l c, P l → P (l.call c)
  timer : ∀ l now id t, l.reactor.timers[id]? = some t → P l →
    P { l with reactor := l.reactor.expire now id, log := l.log ++ [.timer id t l.reactor] }
  watch : ∀ l id w, l.reactor.watches[id]? = some w → P l →
    P { l with log := l.log ++ [.watch id w.fn l.reactor] }

theorem perform_induction {P : Loop α σ → Prop} (hclient : ∀ l c, P l → P { l with client := c })
    (hcall : ∀ l c, P l → P (l.call c)) {l : Loop α σ} (h : P l) (t : Task α σ) :
    P (l.perform t) := by
  have hcalls : ∀ (calls : List (LoopCall α)) (l : Loop α σ), P l → P (calls.foldl Loop.call l) := by
    intro calls
    induction calls with
    | nil => intro l h; exact h
    | cons c calls ih => intro l h; exact ih _ (hcall l c h)
  exact hcalls _ _ (hclient l _ h)

/-- The scan finds the first due timer of the list. -/
theorem scanTimers_fst (now : Int) (kvs : List (Nat × Timer α)) (earliest : Option Int) :
    (scanTimers now kvs earliest).1 = kvs.find? fun kv => kv.2.next ≤ now := by
  induction kvs generalizing earliest with
  | nil => rfl
  | cons kv kvs ih =>
    unfold scanTimers
    by_cases hdue : kv.2.next ≤ now
    · rw [if_pos hdue, List.find?_cons_of_pos (by simpa using hdue)]
    · rw [if_neg hdue, List.find?_cons_of_neg (by simpa using hdue)]
      exact ih _

/-- The timer that fires is the due one with the smallest handle. -/
theorem scanTimers_some {r : Reactor α} {now : Int} {id : Nat} {t : Timer α}
    (h : (scanTimers now r.timers.toList none).1 = some (id, t)) :
    r.timers[id]? = some t ∧ t.next ≤ now ∧
      ∀ j u, r.timers[j]? = some u → u.next ≤ now → id ≤ j := by
  rw [scanTimers_fst, List.find?_eq_some_iff_append] at h
  obtain ⟨hdue, before, after, hlist, hbefore⟩ := h
  have hmem : (id, t) ∈ r.timers.toList := by rw [hlist]; simp
  refine ⟨Std.TreeMap.mem_toList_iff_getElem?_eq_some.mp hmem, by simpa using hdue, ?_⟩
  intro j u hj hu
  have hjmem : (j, u) ∈ r.timers.toList := Std.TreeMap.mem_toList_iff_getElem?_eq_some.mpr hj
  rw [hlist, List.mem_append, List.mem_cons] at hjmem
  have hsorted := Std.TreeMap.ordered_keys_toList (t := r.timers)
  rw [hlist, List.pairwise_append, List.pairwise_cons] at hsorted
  rcases hjmem with hj' | hj' | hj'
  · exact absurd hu (by simpa using hbefore _ hj')
  · exact le_of_eq (Prod.mk.inj hj').1.symm
  · exact le_of_lt (Nat.compare_eq_lt.mp (hsorted.2.1.1 _ hj'))

theorem scanTimers_none {r : Reactor α} {now : Int}
    (h : (scanTimers now r.timers.toList none).1 = none) {j : Nat} {u : Timer α}
    (hj : r.timers[j]? = some u) : now < u.next := by
  rw [scanTimers_fst, List.find?_eq_none] at h
  have hnot := h _ (Std.TreeMap.mem_toList_iff_getElem?_eq_some.mpr hj)
  simpa using hnot

namespace Stable

variable {P : Loop α σ → Prop} (hP : Stable P)

include hP

theorem perform {l : Loop α σ} (h : P l) (t : Task α σ) : P (l.perform t) :=
  perform_induction hP.client hP.call h t

theorem drainTasks {l : Loop α σ} (h : P l) (tasks : List (Task α σ)) : P (l.drainTasks tasks) := by
  unfold Loop.drainTasks
  induction tasks generalizing l with
  | nil => exact h
  | cons t tasks ih => exact ih (hP.perform h t)

theorem dispatch (handlers : α → Task α σ) {l : Loop α σ} (h : P l) (ids : List Nat) :
    P (dispatch handlers l ids) := by
  induction ids generalizing l with
  | nil => exact h
  | cons id ids ih =>
    unfold Loop.dispatch
    split
    · exact ih h
    · next w hw => exact ih (hP.perform (hP.watch l id w hw h) _)

theorem turn (handlers : α → Task α σ) (e : Turn α σ) {l : Loop α σ} (h : P l) :
    P (turn handlers e l).1 := by
  unfold Loop.turn
  split
  · next id t earliest hscan =>
    have ht := (scanTimers_some (congrArg Prod.fst hscan)).1
    exact hP.perform (hP.timer l e.now id t ht h) _
  · exact hP.dispatch handlers h _

theorem runOnce (handlers : α → Task α σ) (e : Turn α σ) {l : Loop α σ} (h : P l) :
    P (runOnce handlers e l).1 := by
  unfold Loop.runOnce
  dsimp only
  split
  · exact hP.turn handlers e (hP.drainTasks h e.tasks)
  · exact hP.drainTasks h e.tasks

end Stable

theorem Stable.and {P Q : Loop α σ → Prop} (hP : Stable P) (hQ : Stable Q) :
    Stable fun l => P l ∧ Q l where
  client l c h := ⟨hP.client l c h.1, hQ.client l c h.2⟩
  call l c h := ⟨hP.call l c h.1, hQ.call l c h.2⟩
  timer l now id t ht h := ⟨hP.timer l now id t ht h.1, hQ.timer l now id t ht h.2⟩
  watch l id w hw h := ⟨hP.watch l id w hw h.1, hQ.watch l id w hw h.2⟩

end Loop

end Tc8Harness.Testability
