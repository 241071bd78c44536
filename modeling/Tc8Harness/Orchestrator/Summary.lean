import Tc8Harness.Orchestrator.Ledger

/-!
# The gate

`summarize` of `dut/env/orchestrator/src/main.rs`: the workers' tallies are added up and the gates
applied, the execution ledger, the dispatch ledger, the non-conclusion ceiling and the failures.
`gate_sound` is what the gate of a whole run means, panics included: a worker that panics loses what it has
concluded, and the gate then stays closed. The ceiling multiplies machine words, and means what it says over
the integers where the products fit (`WordsFit`).
-/

namespace Tc8Harness.Orchestrator

/-- The number of values of a `usize`. -/
def usizeModulus : Nat := 2 ^ 64

/-- Rust's `str::parse::<usize>`: an optional `+`, then at least one decimal digit and nothing else,
with the value in range. -/
def parseUsize (s : String) : Option Nat :=
  let digits := match s.toList with
    | '+' :: rest => rest
    | cs => cs
  if digits ≠ [] ∧ digits.all Char.isDigit then
    let value := digits.foldl (fun n c => n * 10 + (c.toNat - '0'.toNat)) 0
    if value < usizeModulus then some value else none
  else none

/-- The two thresholds as the environment has them; `none` when the variable is not set. -/
structure Env where
  maxNonconclusionPct : Option String := none
  minNonconclusionFail : Option String := none

def envUsize (key : String) (value : Option String) (default : Nat) : Except String Nat :=
  match value with
  | none => .ok default
  | some s =>
    match parseUsize s with
    | some n => .ok n
    | none => .error ("env " ++ key ++ "='" ++ s ++ "' must be a non-negative integer")

def Env.maxPct (env : Env) : Except String Nat :=
  envUsize "TC8_MAX_NONCONCLUSION_PCT" env.maxNonconclusionPct 5

def Env.minFail (env : Env) : Except String Nat :=
  envUsize "TC8_MIN_NONCONCLUSION_FAIL" env.minNonconclusionFail 3

/-- The comparison of the ceiling, on `usize` values. -/
def exceedsCeiling (nonconcl total maxPct minFail : Nat) : Bool :=
  decide (nonconcl ≥ minFail) &&
    decide (nonconcl * 100 % usizeModulus > total * maxPct % usizeModulus)

/-- The non-conclusion ceiling. -/
def checkCeiling (env : Env) (nonconcl total : Nat) : Except String Unit :=
  if nonconcl = 0 then .ok ()
  else
    match env.maxPct with
    | .error e => .error e
    | .ok maxPct =>
      match env.minFail with
      | .error e => .error e
      | .ok minFail =>
        if exceedsCeiling nonconcl total maxPct minFail then
          .error ("FATAL — non-conclusion rate " ++ toString nonconcl ++ "/" ++ toString total ++
            " exceeds the " ++ toString maxPct ++ "% ceiling (floor " ++ toString minFail ++
            "); systemic, not isolated noise. Investigate before trusting the green skips.")
        else .ok ()

/-- `summarize`, without what it prints. -/
def summarize (env : Env) (total : Nat) (results : List WorkerResult) : Except String Unit :=
  let fails := results.flatMap fun r => r.fails
  let nonconcl := results.flatMap fun r => r.nonconclusions
  let undispatched := results.flatMap fun r => r.undispatched
  let processed := (results.map fun r => r.processed).sum
  if processed ≠ total then
    .error ("FATAL — scheduled " ++ toString total ++ " case(s) but only " ++ toString processed ++
      " were processed; a worker terminated early. Treat every result above as suspect.")
  else if ¬ undispatched.isEmpty then
    .error (toString undispatched.length ++
      " case(s) could not be dispatched and have no verdict — see the ERROR line(s) above")
  else
    match checkCeiling env nonconcl.length total with
    | .error e => .error e
    | .ok () =>
      if ¬ fails.isEmpty then
        .error (toString fails.length ++ " conformance failure(s) — see the FAIL line(s) above")
      else .ok ()

/-! ## What the gate is to mean -/

section

variable (toUppercase : Char → List Char)

/-- The unit's run ended in a non-conclusion. -/
def isNonConclusion (c : UnitId × Outcome) : Bool :=
  match c.2 with
  | .ok (.nonConclusion _) => true
  | _ => false

/-- The unit failed or was not dispatched. -/
def isRed (c : UnitId × Outcome) : Bool :=
  match c.2 with
  | .ok (.fail _) => true
  | .error _ => true
  | _ => false

/-- The number of units that ended in a non-conclusion. -/
def nonConclusionCount (done : List (UnitId × Outcome)) : Nat := done.countP isNonConclusion

/-- Every scheduled unit was concluded, none is a failure or undispatched, and no fault-injection
negative ended in a non-conclusion. -/
structure AllConcludedGreen (cases : List UnitId) (done : List (UnitId × Outcome)) : Prop where
  concluded : (done.map fun c => c.1).Perm cases
  notRed : ∀ c ∈ done, isRed c = false
  negatives : ∀ c ∈ done, isNegativeCase toUppercase c.1.case = true → isNonConclusion c = false

/-- The non-conclusions are below the floor or at most `max_pct` percent of the schedule, over the
integers. -/
def WithinCeiling (env : Env) (total nonconcl : Nat) : Prop :=
  nonconcl = 0 ∨ ∃ maxPct minFail, env.maxPct = .ok maxPct ∧ env.minFail = .ok minFail ∧
    (nonconcl < minFail ∨ nonconcl * 100 ≤ total * maxPct)

/-- No product that the ceiling computes for a schedule of this size overflows. -/
structure WordsFit (env : Env) (total : Nat) : Prop where
  rate : total * 100 < usizeModulus
  ceiling : ∀ maxPct, env.maxPct = .ok maxPct → total * maxPct < usizeModulus

/-! ## The gates in terms of the results -/

theorem checkCeiling_ok_iff (env : Env) (nonconcl total : Nat) :
    checkCeiling env nonconcl total = .ok () ↔ nonconcl = 0 ∨ ∃ maxPct minFail,
      env.maxPct = .ok maxPct ∧ env.minFail = .ok minFail ∧
        exceedsCeiling nonconcl total maxPct minFail = false := by
  unfold checkCeiling
  by_cases hzero : nonconcl = 0
  · simp [hzero]
  · rw [if_neg hzero]
    rcases env.maxPct with e | maxPct
    · simp [hzero]
    · rcases env.minFail with e | minFail
      · simp [hzero]
      · cases hexceeds : exceedsCeiling nonconcl total maxPct minFail with
        | true => simp [hzero, hexceeds]
        | false => simp [hexceeds]

theorem summarize_ok_iff (env : Env) (total : Nat) (results : List WorkerResult) :
    summarize env total results = .ok () ↔
      (results.map fun r => r.processed).sum = total ∧
        (results.flatMap fun r => r.undispatched) = [] ∧
        checkCeiling env (results.flatMap fun r => r.nonconclusions).length total = .ok () ∧
        (results.flatMap fun r => r.fails) = [] := by
  unfold summarize
  generalize (results.map fun r => r.processed).sum = processed
  generalize (results.flatMap fun r => r.undispatched) = undispatched
  generalize (results.flatMap fun r => r.nonconclusions) = nonconcl
  generalize (results.flatMap fun r => r.fails) = fails
  dsimp only
  by_cases hprocessed : processed = total
  · rw [if_neg (not_not.2 hprocessed)]
    cases undispatched with
    | cons u us => simp
    | nil =>
      rw [if_neg (by simp)]
      rcases checkCeiling env nonconcl.length total with e | _
      · simp
      · cases fails <;> simp [hprocessed]
  · rw [if_pos hprocessed]
    simp [hprocessed]

variable {toUppercase} {negative : Bool} {runs : List WorkerRun} {results : List WorkerResult}

/-- A list that every result reads off the units it accounts for, over all workers. -/
theorem flatMap_eq_filterMap {α : Type} {list : WorkerResult → List α}
    {entry : UnitId × Outcome → Option α}
    (hjoined : List.Forall₂ (Joined toUppercase negative) runs results)
    (h : ∀ done r, Tallied toUppercase negative done r → list r = done.filterMap entry) :
    results.flatMap list = (accountedBy runs).filterMap entry := by
  induction hjoined with
  | nil => rfl
  | cons hhead _ ih =>
    rw [List.flatMap_cons, h _ _ hhead.accounted, ih]
    exact List.filterMap_append.symm

theorem sum_processed (hjoined : List.Forall₂ (Joined toUppercase negative) runs results) :
    (results.map fun r => r.processed).sum = (accountedBy runs).length := by
  induction hjoined with
  | nil => rfl
  | cons hhead _ ih =>
    rw [List.map_cons, List.sum_cons, hhead.accounted.processed, ih]
    exact List.length_append.symm

/-- A unit that is in neither red list is green, and the other way round. -/
theorem entries_none_iff (c : UnitId × Outcome) :
    (failEntry toUppercase c = none ∧ undispatchedEntry toUppercase c = none) ↔
      isRed c = false ∧ (isNegativeCase toUppercase c.1.case = true → isNonConclusion c = false) := by
  rcases c with ⟨u, e | verdict⟩
  · simp [failEntry, undispatchedEntry, conclusionOf, isRed]
  · cases verdict with
    | nonConclusion reason =>
      cases hneg : isNegativeCase toUppercase u.case <;>
        simp [failEntry, undispatchedEntry, conclusionOf, isRed, isNonConclusion, hneg]
    | _ => simp [failEntry, undispatchedEntry, conclusionOf, isRed, isNonConclusion]

/-- Without a negative among them, the non-conclusions are the units of that list. -/
theorem nonConclusionEntry_isSome {c : UnitId × Outcome}
    (h : isNegativeCase toUppercase c.1.case = true → isNonConclusion c = false) :
    (nonConclusionEntry toUppercase c).isSome = isNonConclusion c := by
  rcases c with ⟨u, e | verdict⟩
  · rfl
  · cases verdict with
    | nonConclusion reason =>
      cases hneg : isNegativeCase toUppercase u.case with
      | true => exact absurd (h hneg) (by simp [isNonConclusion])
      | false => simp [nonConclusionEntry, conclusionOf, isNonConclusion, hneg]
    | _ => rfl

/-- The execution ledger balances exactly when the units accounted for are the scheduled ones. -/
theorem accounted_perm_iff {cases : List UnitId} {workers : Nat} (hw : 1 ≤ workers)
    (h : List.Forall₂ (WorkerSpec toUppercase negative) (distribute cases workers) runs) :
    (accountedBy runs).length = cases.length ↔ ((accountedBy runs).map fun c => c.1).Perm cases := by
  have hperm := distribute_perm cases hw
  constructor
  · intro hlen
    rw [(accountedBy_of_length h (hlen.trans hperm.length_eq.symm)).1]
    exact hperm
  · intro haccounted
    rw [← haccounted.length_eq, List.length_map]

/-- The gate is open exactly when everything accounted for is green and the whole schedule, and the
ceiling, as the code computes it, is not exceeded. -/
theorem summarize_eq_ok_iff {cases : List UnitId} {workers : Nat} (hw : 1 ≤ workers)
    (h : List.Forall₂ (WorkerSpec toUppercase negative) (distribute cases workers) runs)
    (hjoined : List.Forall₂ (Joined toUppercase negative) runs results) (env : Env) :
    summarize env cases.length results = .ok () ↔
      AllConcludedGreen toUppercase cases (accountedBy runs) ∧
        checkCeiling env (nonConclusionCount (accountedBy runs)) cases.length = .ok () := by
  have hnonconcl : (∀ c ∈ accountedBy runs, isNegativeCase toUppercase c.1.case = true →
      isNonConclusion c = false) →
      (results.flatMap fun r => r.nonconclusions).length = nonConclusionCount (accountedBy runs) := by
    intro hneg
    rw [flatMap_eq_filterMap hjoined fun _ _ ht => ht.nonconclusions, List.length_filterMap_eq_countP]
    refine List.countP_congr fun c hc => ?_
    rw [nonConclusionEntry_isSome (hneg c hc)]
  rw [summarize_ok_iff, sum_processed hjoined, accounted_perm_iff hw h,
    flatMap_eq_filterMap hjoined fun _ _ ht => ht.undispatched,
    flatMap_eq_filterMap hjoined fun _ _ ht => ht.fails, List.filterMap_eq_nil_iff,
    List.filterMap_eq_nil_iff]
  constructor
  · rintro ⟨haccounted, hundis, hceiling, hfails⟩
    have hgreen := fun c hc => (entries_none_iff c).1 ⟨hfails c hc, hundis c hc⟩
    have hneg := fun c hc => (hgreen c hc).2
    rw [hnonconcl hneg] at hceiling
    exact ⟨⟨haccounted, fun c hc => (hgreen c hc).1, hneg⟩, hceiling⟩
  · rintro ⟨hgreen, hceiling⟩
    have hnone := fun c hc => (entries_none_iff c).2 ⟨hgreen.notRed c hc, hgreen.negatives c hc⟩
    refine ⟨hgreen.concluded, fun c hc => (hnone c hc).2, ?_, fun c hc => (hnone c hc).1⟩
    rw [hnonconcl hgreen.negatives]
    exact hceiling

/-- The schedule is accounted for exactly when it was concluded and no worker with units panicked. -/
theorem accounted_green_iff {cases : List UnitId} {workers : Nat} (hw : 1 ≤ workers)
    (h : List.Forall₂ (WorkerSpec toUppercase negative) (distribute cases workers) runs) :
    AllConcludedGreen toUppercase cases (accountedBy runs) ↔
      AllReturned (distribute cases workers) runs ∧
        AllConcludedGreen toUppercase cases (concludedBy runs) := by
  constructor
  · intro hgreen
    have hlen := (accounted_perm_iff hw h).mpr hgreen.concluded
    have hreturned := (accountedBy_of_length h (hlen.trans (distribute_perm cases hw).length_eq.symm)).2
    refine ⟨hreturned, ?_⟩
    rwa [accountedBy_eq h hreturned] at hgreen
  · rintro ⟨hreturned, hgreen⟩
    rwa [accountedBy_eq h hreturned]

/-! ## Soundness of the gate -/

/-- Where its products fit, the ceiling of the code is the ceiling over the integers. -/
theorem checkCeiling_ok_iff_within {env : Env} {total nonconcl : Nat} (hfit : WordsFit env total)
    (hle : nonconcl ≤ total) :
    checkCeiling env nonconcl total = .ok () ↔ WithinCeiling env total nonconcl := by
  rw [checkCeiling_ok_iff, WithinCeiling]
  refine or_congr_right (exists_congr fun maxPct => exists_congr fun minFail => ?_)
  refine and_congr_right fun hpct => and_congr_right fun _ => ?_
  have hrate : nonconcl * 100 < usizeModulus := (Nat.mul_le_mul_right 100 hle).trans_lt hfit.rate
  unfold exceedsCeiling
  rw [Nat.mod_eq_of_lt hrate, Nat.mod_eq_of_lt (hfit.ceiling maxPct hpct), Bool.and_eq_false_iff,
    decide_eq_false_iff_not, decide_eq_false_iff_not, Nat.not_le, Nat.not_lt]

/-- One run of the orchestrator's gate. Every unit goes to exactly one bucket. Every worker concludes a
prefix of its bucket; the result of one that returns is a tally of that, and one that panics leaves its
error only. The process is aborted where a panic meets a panic of the teardown. Otherwise the gate is open
exactly when no worker with units panicked, everything was concluded green and the non-conclusions are
within the ceiling. -/
structure GateSound {Ctx : Type} (toUppercase : Char → List Char) (env : Env) (fx : Fixture Ctx)
    (cases : List UnitId) (workers : Nat) (dutFirst : Bool) (neg : Option AssertSchedule) :
    Prop where
  buckets : (distribute cases workers).length = workers ∧ ∀ b < workers,
    (distribute cases workers)[b]? =
      some ((cases.zipIdx.filter fun c => c.2 % workers == b).map fun c => c.1)
  prefixes : List.Forall₂ (WorkerSpec toUppercase (isNegativeRun neg)) (distribute cases workers)
    (runWorkers toUppercase fx (distribute cases workers) dutFirst neg)
  aborts : runAll toUppercase fx (distribute cases workers) dutFirst neg = none ↔
    ∃ run ∈ runWorkers toUppercase fx (distribute cases workers) dutFirst neg, run.ended = .aborted
  ledger : ∀ results, runAll toUppercase fx (distribute cases workers) dutFirst neg = some results →
    List.Forall₂ (Joined toUppercase (isNegativeRun neg))
      (runWorkers toUppercase fx (distribute cases workers) dutFirst neg) results
  gate : ∀ results, runAll toUppercase fx (distribute cases workers) dutFirst neg = some results →
    (summarize env cases.length results = .ok () ↔
      AllReturned (distribute cases workers)
          (runWorkers toUppercase fx (distribute cases workers) dutFirst neg) ∧
        AllConcludedGreen toUppercase cases
          (concludedBy (runWorkers toUppercase fx (distribute cases workers) dutFirst neg)) ∧
        WithinCeiling env cases.length (nonConclusionCount
          (concludedBy (runWorkers toUppercase fx (distribute cases workers) dutFirst neg))))

/-- **The gate is sound**, for every schedule, worker count, outcome of every dispatch, bring-up
failure, rebuild failure and panic, where the products of the ceiling fit their words. -/
theorem gate_sound {Ctx : Type} (toUppercase : Char → List Char) (env : Env) (fx : Fixture Ctx)
    (cases : List UnitId) (workers : Nat) (hw : 1 ≤ workers) (hfit : WordsFit env cases.length)
    (dutFirst : Bool) (neg : Option AssertSchedule) :
    GateSound toUppercase env fx cases workers dutFirst neg := by
  have hspec := @runWorkers_spec toUppercase Ctx fx dutFirst neg (distribute cases workers)
  refine ⟨⟨length_distribute cases workers, fun b hb => distribute_bucket cases hb⟩, hspec,
    joinAll_eq_none_iff, fun results hall => joinAll_joined hspec hall, fun results hall => ?_⟩
  rw [summarize_eq_ok_iff hw hspec (joinAll_joined hspec hall), accounted_green_iff hw hspec, and_assoc]
  refine and_congr_right fun hreturned => and_congr_right fun hgreen => ?_
  rw [accountedBy_eq hspec hreturned]
  refine checkCeiling_ok_iff_within hfit ?_
  refine List.countP_le_length.trans_eq ?_
  rw [← hgreen.concluded.length_eq, List.length_map]

end

/-! ## Runs that lose a record, and a ceiling that overflows -/

/-- A fixture on which every unit up to position `n` of a bucket ends in a non-conclusion, and every
other passes. -/
def inconclusiveFixture (n : Nat) : Fixture Unit where
  bringUpWorker := fun _ => some (.ok ())
  rebuildNetnsPerCase := false
  rebuildTearDown := fun _ _ _ => some (.ok ())
  rebuildBringUp := fun _ _ _ => some (.ok ())
  dispatch := fun _ i _ _ _ =>
    some (.ok (if i < n then .nonConclusion "inconclusive:no_reply" else .pass))
  guardTearDown := fun _ => some (.ok ())

/-- A fixture on which the dispatch of the second unit of a bucket panics. -/
def panickingFixture : Fixture Unit :=
  { inconclusiveFixture 0 with dispatch := fun _ i _ _ _ => if i = 1 then none else some (.ok .pass) }

/-- A fixture on which every unit passes and the teardown of the guard panics. -/
def tearDownFixture : Fixture Unit := { inconclusiveFixture 0 with guardTearDown := fun _ => none }

def fourUnits : List UnitId := [⟨"ARP_01", 0⟩, ⟨"ARP_02", 0⟩, ⟨"ARP_03", 0⟩, ⟨"ARP_04", 0⟩]

def asciiUpper (c : Char) : List Char := [c.toUpper]

theorem wordsFit_fourUnits : WordsFit {} fourUnits.length := by
  refine ⟨by decide, ?_⟩
  intro maxPct h
  cases h
  decide

/-- A run of one worker in which every unit passes. -/
theorem gate_sound_all_pass :
    1 ≤ 1 ∧ GateSound asciiUpper {} (inconclusiveFixture 0) fourUnits 1 false none :=
  ⟨by decide, gate_sound asciiUpper {} (inconclusiveFixture 0) fourUnits 1 (by decide)
    wordsFit_fourUnits false none⟩

/-- A unit that was concluded before its worker panics has no record; and where only the teardown behind
the last unit panics, every unit was concluded and passed and the gate is closed. -/
theorem concluded_unit_unrecorded :
    (concludedBy (runWorkers asciiUpper panickingFixture (distribute fourUnits 1) false none) =
        [(⟨"ARP_01", 0⟩, .ok .pass)] ∧
      (runAll asciiUpper panickingFixture (distribute fourUnits 1) false none).map
        (fun results => results.flatMap fun r => r.records) = some []) ∧
    (concludedBy (runWorkers asciiUpper tearDownFixture (distribute fourUnits 1) false none) =
        fourUnits.map (fun u => (u, .ok .pass)) ∧
      (runAll asciiUpper tearDownFixture (distribute fourUnits 1) false none).any
        (fun results => (summarize {} 4 results).isOk) = false) :=
  ⟨⟨rfl, rfl⟩, rfl, by decide⟩

/-- Four units, three of them non-conclusions, and a ceiling of 2^62 percent: over the integers the
ceiling is not exceeded, but `4 * 2^62` is 0 as a machine word and the gate closes. -/
theorem not_gateSound_wrapped_ceiling :
    ¬ GateSound asciiUpper { maxNonconclusionPct := some "4611686018427387904" }
      (inconclusiveFixture 3) fourUnits 1 false none := by
  intro h
  have hopen := (h.gate _ rfl).mpr ⟨.cons (fun _ => ⟨_, rfl⟩) .nil, ⟨?_, ?_, ?_⟩,
    .inr ⟨2 ^ 62, 3, ?_, ?_, ?_⟩⟩
  · revert hopen
    decide
  · decide
  · decide
  · decide
  · decide
  · decide
  · decide

end Tc8Harness.Orchestrator
