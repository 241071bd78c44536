import Tc8Harness.Orchestrator.Unit

/-!
# Workers

`dut/env/orchestrator/src/worker.rs`: the schedule is dealt out round-robin, each worker brings its
fixture up, drains its bucket and tears the fixture down, and a worker that panics leaves an empty result
with an error. What the run meets outside the orchestrator (bring-up, rebuilds, the dispatch of a case, the
teardown) is a `Fixture`; each of its answers is `none` when the call panicked.

`WorkerRun.concluded` is not in the source: it has each unit that the worker dispatched and its outcome,
also of a worker that then panics and whose result is lost.
-/

namespace Tc8Harness.Orchestrator

inductive Verdict where
  | pass
  | fail (reason : String)
  | skip (reason : String)
  | nonConclusion (reason : String)
  deriving DecidableEq, Repr

inductive Status where
  | pass
  | fail
  | skip
  | error
  deriving DecidableEq, Repr

/-- A record of the JUnit report, without its duration. -/
structure CaseRecord where
  name : String
  status : Status
  message : String
  negative : Bool
  deriving DecidableEq, Repr

structure Skip where
  case : String
  reason : String
  deriving DecidableEq, Repr

inductive AssertMode where
  | negativeRow
  | knownFail
  deriving DecidableEq, Repr

structure AssertSchedule where
  mode : AssertMode
  expect : UnitId → Option String

/-- How a unit is driven. -/
inductive Drive where
  | runCase (dutFirst : Bool)
  | runNegativeRow (expected : String)
  | runKnownFail (expected : String)

/-- What dispatching a unit came to: a verdict, or the text of the error. -/
abbrev Outcome := Except String Verdict

structure WorkerResult where
  fails : List String := []
  skips : List Skip := []
  nonconclusions : List Skip := []
  undispatched : List Skip := []
  processed : Nat := 0
  records : List CaseRecord := []
  workerError : Option String := none

/-- How a worker's thread ends. A panic of the teardown guard while another panic unwinds aborts the
process. -/
inductive Ended where
  | returned (result : WorkerResult)
  | panicked
  | aborted

/-- What a worker did: the units it concluded, and how it ended. -/
structure WorkerRun where
  concluded : List (UnitId × Outcome)
  ended : Ended

/-- What the run meets outside: by worker, by position in its bucket, by rebuild attempt. -/
structure Fixture (Ctx : Type) where
  bringUpWorker : Nat → Option (Except String Ctx)
  rebuildNetnsPerCase : Bool
  rebuildTearDown : Nat → Nat → Nat → Option (Except String Unit)
  rebuildBringUp : Nat → Nat → Nat → Option (Except String Ctx)
  dispatch : Nat → Nat → Ctx → UnitId → Drive → Option Outcome
  /-- The teardown of the guard, which runs on every way out of the worker. -/
  guardTearDown : Nat → Option (Except String Unit)

/-! ## Negatives -/

/-- What follows the last `_NEG` of an upper-cased case id. -/
def afterLastNeg (upper : List Char) : Option (List Char) :=
  (upper.tails.filterMap fun t =>
    if "_NEG".toList.isPrefixOf t then some (t.drop 4) else none).getLast?

/-- Is the case a fault-injection negative, `<base>_NEG` or `<base>_NEG<n>`? `toUppercase` is the
upper-casing of one character, which may be several. -/
def isNegativeCase (toUppercase : Char → List Char) (case : String) : Bool :=
  match afterLastNeg (case.toList.flatMap toUppercase) with
  | none => false
  | some rest => rest.all Char.isDigit

/-! ## Distribution -/

/-- `distribute`: the unit at position `i` goes to bucket `i % workers`. -/
def distribute (cases : List UnitId) (workers : Nat) : List (List UnitId) :=
  cases.zipIdx.foldl (fun buckets c => buckets.modify (c.2 % workers) (· ++ [c.1]))
    (List.replicate workers [])

/-! ## One worker -/

def rebuildAttempts : Nat := 4

/-- The attempts of `rebuild_worker_netns` from number `attempt` on; a failed teardown is only warned
about. With no attempt left, the last error is unwrapped. -/
def rebuildFrom {Ctx : Type} (fx : Fixture Ctx) (w i : Nat) :
    Nat → Nat → Option String → Option (Except String Ctx)
  | 0, _, lastErr => lastErr.map .error
  | left + 1, attempt, _ =>
    match fx.rebuildTearDown w i attempt with
    | none => none
    | some _ =>
      match fx.rebuildBringUp w i attempt with
      | none => none
      | some (.ok ctx) => some (.ok ctx)
      | some (.error e) => rebuildFrom fx w i left (attempt + 1) (some e)

def rebuildWorkerNetns {Ctx : Type} (fx : Fixture Ctx) (w i : Nat) : Option (Except String Ctx) :=
  rebuildFrom fx w i rebuildAttempts 0 none

/-- How the schedule drives a unit; `none` when an asserted schedule lacks it, which panics. -/
def driveOf (neg : Option AssertSchedule) (dutFirst : Bool) (case : UnitId) : Option Drive :=
  match neg with
  | none => some (.runCase dutFirst)
  | some sched =>
    (sched.expect case).map fun expected => match sched.mode with
      | .negativeRow => .runNegativeRow expected
      | .knownFail => .runKnownFail expected

/-- The run drives authored negative rows. -/
def isNegativeRun : Option AssertSchedule → Bool
  | some sched => sched.mode == .negativeRow
  | none => false

section

variable (toUppercase : Char → List Char)

/-- One dispatched unit into the worker's tally: its list, its record, and the count. -/
def conclude (negative : Bool) (case : UnitId) (outcome : Outcome) (r : WorkerResult) :
    WorkerResult :=
  let name := if negative then case.render ++ "_neg" else case.render
  let (r, status, message) : WorkerResult × Status × String :=
    match outcome with
    | .ok .pass => (r, .pass, "")
    | .ok (.fail reason) => ({ r with fails := r.fails ++ [case.render] }, .fail, reason)
    | .ok (.skip reason) =>
      ({ r with skips := r.skips ++ [⟨case.render, reason⟩] }, .skip, reason)
    | .ok (.nonConclusion reason) =>
      if isNegativeCase toUppercase case.case then
        ({ r with fails := r.fails ++ [case.render] }, .fail,
          "negative did not exercise its guard, so it proves nothing: " ++ reason)
      else
        ({ r with nonconclusions := r.nonconclusions ++ [⟨case.render, reason⟩] }, .skip, reason)
    | .error e =>
      ({ r with undispatched := r.undispatched ++ [⟨case.render, "dispatch_fault: " ++ e⟩] }, .error,
        "dispatch_fault: " ++ e)
  { r with
    records := r.records ++ [⟨name, status, message, negative⟩]
    processed := r.processed + 1 }

/-- The loop over a bucket, at position `i`, with what was concluded so far; no result when it panics. -/
def runBucket {Ctx : Type} (fx : Fixture Ctx) (w : Nat) (dutFirst : Bool)
    (neg : Option AssertSchedule) (ctx : Ctx) :
    Nat → List UnitId → List (UnitId × Outcome) → WorkerResult →
      List (UnitId × Outcome) × Option WorkerResult
  | _, [], done, r => (done, some r)
  | i, case :: rest, done, r =>
    match if fx.rebuildNetnsPerCase then rebuildWorkerNetns fx w i else some (.ok ctx) with
    | none => (done, none)
    | some (.error e) =>
      (done, some
        { r with
          workerError := some ("worker " ++ toString w ++ " per-case netns rebuild before " ++
            case.render ++ " failed: " ++ e) })
    | some (.ok caseCtx) =>
      match driveOf neg dutFirst case with
      | none => (done, none)
      | some drive =>
        match fx.dispatch w i caseCtx case drive with
        | none => (done, none)
        | some outcome =>
          runBucket fx w dutFirst neg ctx (i + 1) rest (done ++ [(case, outcome)])
            (conclude toUppercase (isNegativeRun neg) case outcome r)

/-- The worker up to its guard. -/
def workerBody {Ctx : Type} (fx : Fixture Ctx) (w : Nat) (bucket : List UnitId) (dutFirst : Bool)
    (neg : Option AssertSchedule) : List (UnitId × Outcome) × Option WorkerResult :=
  match fx.bringUpWorker w with
  | none => ([], none)
  | some (.error e) =>
    ([], some { workerError := some ("worker " ++ toString w ++ " bring-up failed: " ++ e) })
  | some (.ok ctx) => runBucket toUppercase fx w dutFirst neg ctx 0 bucket [] {}

/-- The way out of the worker: the guard tears the fixture down and does not look at the result. -/
def guarded : Option WorkerResult → Option (Except String Unit) → Ended
  | some r, some _ => .returned r
  | none, some _ => .panicked
  | some _, none => .panicked
  | none, none => .aborted

def runWorker {Ctx : Type} (fx : Fixture Ctx) (w : Nat) (bucket : List UnitId) (dutFirst : Bool)
    (neg : Option AssertSchedule) : WorkerRun :=
  let (concluded, result) := workerBody toUppercase fx w bucket dutFirst neg
  ⟨concluded, guarded result (fx.guardTearDown w)⟩

/-- The threads of `run_all`, one for each bucket. -/
def runWorkers {Ctx : Type} (fx : Fixture Ctx) (buckets : List (List UnitId)) (dutFirst : Bool)
    (neg : Option AssertSchedule) : List WorkerRun :=
  buckets.zipIdx.map fun b => runWorker toUppercase fx b.2 b.1 dutFirst neg

end

/-- `join`: a worker that panicked leaves an empty result with its error. -/
def join (w : Nat) : Ended → Option WorkerResult
  | .returned r => some r
  | .panicked => some { workerError := some ("worker " ++ toString w ++ " thread panicked") }
  | .aborted => none

/-- The joins of `run_all`; `none` when the process was aborted. -/
def joinAll (runs : List WorkerRun) : Option (List WorkerResult) :=
  runs.zipIdx.mapM fun r => join r.2 r.1.ended

def runAll {Ctx : Type} (toUppercase : Char → List Char) (fx : Fixture Ctx)
    (buckets : List (List UnitId)) (dutFirst : Bool) (neg : Option AssertSchedule) :
    Option (List WorkerResult) :=
  joinAll (runWorkers toUppercase fx buckets dutFirst neg)

end Tc8Harness.Orchestrator
