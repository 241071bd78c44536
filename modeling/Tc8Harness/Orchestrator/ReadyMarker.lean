import Tc8Harness.Lib.Occurrence

/-!
# Waiting for the DUT's announcement

`scan_for_marker` and `wait_for_dut_ready` of `dut/env/orchestrator/src/dispatch.rs`: the DUT's log is read
as it grows, and the end of what was read is carried over to the next read. The log itself is what the
DUT wrote so far; the file handle is a position in it. `scan_iff` says what one call answers,
`waitForDutReady_iff` what the barrier concludes.
-/

namespace Tc8Harness.Orchestrator

open Occurrence

/-- What `read_to_end` came to: the bytes it read, or an error. -/
abbrev ReadResult := Option (List UInt8)

/-- The answer, and the carry that is left. -/
def scanForMarker (read : ReadResult) (carry marker : List UInt8) : Bool × List UInt8 :=
  if marker = [] then (false, carry)
  else
    match read with
    | none => (false, carry)
    | some chunk =>
      if chunk = [] then (false, carry)
      else
        let hay := carry ++ chunk
        let found := (windows marker.length hay).any (· == marker)
        let keep := min (marker.length - 1) hay.length
        (found, hay.drop (hay.length - keep))

/-- A reader of the log: its file position and its carry. -/
structure LogReader where
  pos : Nat := 0
  carry : List UInt8 := []

/-- One call on the log as it is now, the read succeeding. -/
def LogReader.scan (r : LogReader) (marker log : List UInt8) : Bool × LogReader :=
  let out := scanForMarker (some (log.drop r.pos)) r.carry marker
  (out.1, ⟨log.length, out.2⟩)

/-- The calls after each growth of the log. -/
def scansFrom (marker : List UInt8) : LogReader → List UInt8 → List (List UInt8) → List Bool
  | _, _, [] => []
  | r, log, grown :: more =>
    let out := r.scan marker (log ++ grown)
    out.1 :: scansFrom marker out.2 (log ++ grown) more

def scans (marker : List UInt8) (growth : List (List UInt8)) : List Bool := scansFrom marker {} [] growth

/-! ## One call -/

variable {marker : List UInt8}

/-- The reader has read `log` and carries its end. -/
def LogReader.Read (marker : List UInt8) (r : LogReader) (log : List UInt8) : Prop :=
  r.pos = log.length ∧ r.carry = log.rtake (marker.length - 1)

theorem LogReader.read_nil : LogReader.Read marker {} [] := ⟨rfl, (List.rtake_nil _).symm⟩

theorem scanForMarker_fst {log : List UInt8} (hm : marker ≠ []) (chunk : List UInt8) :
    (scanForMarker (some chunk) (log.rtake (marker.length - 1)) marker).1 = true ↔
      EndsIn marker log chunk := by
  unfold scanForMarker
  rw [if_neg hm]
  dsimp only
  split
  · next hempty =>
    -- nothing was read, and no occurrence ends in nothing
    refine iff_of_false Bool.false_ne_true ?_
    rintro ⟨front, back, hsplit, hend⟩
    have hlen := congrArg List.length hsplit
    rw [hempty, List.append_nil, List.length_append] at hlen
    omega
  · rw [List.any_eq_true, ← infix_rtake_append_iff hm, ← mem_windows_iff hm]
    constructor
    · rintro ⟨window, hwindow, heq⟩
      obtain rfl := beq_iff_eq.1 heq
      exact hwindow
    · exact fun h => ⟨marker, h, beq_self_eq_true marker⟩

theorem scanForMarker_snd {log : List UInt8} (hm : marker ≠ []) (chunk : List UInt8) :
    (scanForMarker (some chunk) (log.rtake (marker.length - 1)) marker).2 =
      (log ++ chunk).rtake (marker.length - 1) := by
  unfold scanForMarker
  rw [if_neg hm]
  dsimp only
  split
  · next hempty => rw [hempty, List.append_nil]
  · have hkeep : ∀ hay : List UInt8, hay.length - min (marker.length - 1) hay.length =
        hay.length - (marker.length - 1) := by
      intro hay
      omega
    rw [← rtake_append_rtake]
    dsimp only
    rw [hkeep]
    rfl

/-- A call answers whether an occurrence ends in what it reads. -/
theorem LogReader.Read.scan_fst {r : LogReader} {log : List UInt8} (hm : marker ≠ [])
    (h : r.Read marker log) (grown : List UInt8) :
    (r.scan marker (log ++ grown)).1 = true ↔ EndsIn marker log grown := by
  obtain ⟨hpos, hcarry⟩ := h
  rw [LogReader.scan, hpos, hcarry, List.drop_left]
  exact scanForMarker_fst hm grown

theorem LogReader.Read.scan_snd {r : LogReader} {log : List UInt8} (hm : marker ≠ [])
    (h : r.Read marker log) (grown : List UInt8) :
    (r.scan marker (log ++ grown)).2.Read marker (log ++ grown) := by
  obtain ⟨hpos, hcarry⟩ := h
  rw [LogReader.scan, hpos, hcarry, List.drop_left]
  exact ⟨rfl, scanForMarker_snd hm grown⟩

/-! ## The calls on a log that grows -/

theorem scansFrom_getElem? {r : LogReader} {log : List UInt8} (hm : marker ≠ []) (h : r.Read marker log)
    (growth : List (List UInt8)) {k : Nat} {grown : List UInt8} (hk : growth[k]? = some grown) :
    (scansFrom marker r log growth)[k]? = some true ↔
      EndsIn marker (log ++ (growth.take k).flatten) grown := by
  induction growth generalizing r log k with
  | nil => cases hk
  | cons first more ih =>
    rw [scansFrom]
    cases k with
    | zero =>
      obtain rfl := Option.some.inj hk
      rw [List.getElem?_cons_zero, Option.some.injEq, h.scan_fst hm, List.take_zero, List.flatten_nil,
        List.append_nil]
    | succ k =>
      rw [List.getElem?_cons_succ, ih (h.scan_snd hm first) hk, List.take_succ_cons, List.flatten_cons,
        List.append_assoc]

theorem true_mem_scansFrom {r : LogReader} {log : List UInt8} (hm : marker ≠ []) (h : r.Read marker log)
    (growth : List (List UInt8)) :
    marker <:+: log ∨ true ∈ scansFrom marker r log growth ↔ marker <:+: log ++ growth.flatten := by
  induction growth generalizing r log with
  | nil => simp [scansFrom]
  | cons first more ih =>
    rw [scansFrom, List.mem_cons, List.flatten_cons, ← List.append_assoc, ← ih (h.scan_snd hm first),
      infix_append_iff_endsIn, ← h.scan_fst hm, or_assoc]
    exact or_congr_right (or_congr_left eq_comm)

theorem scans_take (growth : List (List UInt8)) (n : Nat) :
    (scans marker growth).take n = scans marker (growth.take n) := by
  have hfrom : ∀ (growth : List (List UInt8)) (n : Nat) (r : LogReader) (log : List UInt8),
      (scansFrom marker r log growth).take n = scansFrom marker r log (growth.take n) := by
    intro growth
    induction growth with
    | nil => simp [scansFrom]
    | cons first more ih =>
      intro n r log
      cases n with
      | zero => rfl
      | succ n => rw [scansFrom, List.take_succ_cons, ih, List.take_succ_cons, scansFrom]
  exact hfrom growth n _ _

/-- **Scanning does not depend on where the reads are cut**: a call answers whether an occurrence of the
marker ends in what it reads, and some call has answered so exactly when the log holds the marker. -/
theorem scans_iff (hm : marker ≠ []) (growth : List (List UInt8)) :
    (∀ k grown, growth[k]? = some grown → ((scans marker growth)[k]? = some true ↔
      EndsIn marker (growth.take k).flatten grown)) ∧
    ∀ n, true ∈ (scans marker growth).take n ↔ marker <:+: (growth.take n).flatten := by
  refine ⟨fun k grown hk => ?_, fun n => ?_⟩
  · exact scansFrom_getElem? hm LogReader.read_nil growth hk
  · have hall := true_mem_scansFrom hm LogReader.read_nil (growth.take n)
    have hnil : ¬ marker <:+: [] := fun h => hm (List.eq_nil_of_infix_nil h)
    rw [or_iff_right hnil, List.nil_append] at hall
    rw [scans_take]
    exact hall

/-- The marker cut in two by an empty read, and once more whole. -/
def cutGrowth : List (List UInt8) := [[1, 2], [], [1, 1, 2, 1]]

theorem scans_iff_cut :
    (∀ k grown, cutGrowth[k]? = some grown → ((scans [2, 1] cutGrowth)[k]? = some true ↔
      EndsIn [2, 1] (cutGrowth.take k).flatten grown)) ∧
    ∀ n, true ∈ (scans [2, 1] cutGrowth).take n ↔ [2, 1] <:+: (cutGrowth.take n).flatten :=
  scans_iff (by decide) cutGrowth

/-! ## The barrier -/

def dutReadyPollMs : Nat := 20
def dutReadyMaxPolls : Nat := 500

inductive DutReady where
  | ready
  | notReady (why : String)
  deriving DecidableEq

/-- What one poll meets: what the DUT wrote since the last one, whether the log can be opened where it is
not open yet, and whether the DUT is seen to have exited. -/
structure DutPoll where
  grown : List UInt8
  opens : Bool
  exited : Bool

def exitedText (dlog : String) : String :=
  "the DUT exited before announcing readiness (see " ++ dlog ++ ")"

def ceilingText (dlog : String) : String :=
  "the DUT did not announce readiness within " ++ toString (dutReadyPollMs * dutReadyMaxPolls) ++
    " ms (see " ++ dlog ++ ")"

def waitFrom (dlog : String) (marker : List UInt8) :
    Option LogReader → List UInt8 → List DutPoll → DutReady
  | _, _, [] => .notReady (ceilingText dlog)
  | file, log, poll :: polls =>
    let log := log ++ poll.grown
    let file := if file.isNone && poll.opens then some {} else file
    let scanned := file.map (·.scan marker log)
    if scanned.any (·.1) then .ready
    else if poll.exited then .notReady (exitedText dlog)
    else waitFrom dlog marker (scanned.map (·.2)) log polls

def waitForDutReady (dlog : String) (marker : List UInt8) (polls : List DutPoll) : DutReady :=
  waitFrom dlog marker none [] (polls.take dutReadyMaxPolls)

/-- At one of the polls the log is open and holds the marker, and at none before it the DUT had exited. -/
def Announced (marker : List UInt8) (isOpen : Bool) (log : List UInt8) (polls : List DutPoll) : Prop :=
  ∃ before poll later, polls = before ++ poll :: later ∧ (∀ q ∈ before, q.exited = false) ∧
    (isOpen || (before ++ [poll]).any DutPoll.opens) = true ∧
    marker <:+: log ++ (before ++ [poll]).flatMap DutPoll.grown

/-- The first poll is the one, or a later one. -/
theorem announced_cons {isOpen : Bool} {log : List UInt8} {poll : DutPoll} {polls : List DutPoll} :
    Announced marker isOpen log (poll :: polls) ↔
      ((isOpen || poll.opens) = true ∧ marker <:+: log ++ poll.grown) ∨
      (poll.exited = false ∧ Announced marker (isOpen || poll.opens) (log ++ poll.grown) polls) := by
  constructor
  · rintro ⟨before, chosen, later, hsplit, hrunning, hopen, hmarker⟩
    cases before with
    | nil =>
      obtain ⟨rfl, rfl⟩ := List.cons.inj hsplit
      exact .inl (by simpa using And.intro hopen hmarker)
    | cons first before =>
      obtain ⟨rfl, rfl⟩ := List.cons.inj hsplit
      rw [List.forall_mem_cons] at hrunning
      refine .inr ⟨hrunning.1, before, chosen, later, rfl, hrunning.2, ?_, ?_⟩
      · rwa [Bool.or_assoc]
      · rwa [List.append_assoc]
  · rintro (⟨hopen, hmarker⟩ | ⟨hrunning, before, chosen, later, rfl, hbefore, hopen, hmarker⟩)
    · refine ⟨[], poll, polls, rfl, nofun, ?_, ?_⟩
      · simpa using hopen
      · simpa using hmarker
    · refine ⟨poll :: before, chosen, later, rfl, List.forall_mem_cons.2 ⟨hrunning, hbefore⟩, ?_, ?_⟩
      · rwa [Bool.or_assoc] at hopen
      · rwa [List.append_assoc] at hmarker

/-- A reader that has read nothing, or all of a log without the marker, finds the marker where it is. -/
theorem scan_after_growth {file : Option LogReader} {log : List UInt8} (hm : marker ≠ [])
    (hfile : ∀ r, file = some r → r.Read marker log ∧ ¬ marker <:+: log) (poll : DutPoll) {r : LogReader}
    (hr : (if file.isNone && poll.opens then some {} else file) = some r) :
    ((r.scan marker (log ++ poll.grown)).1 = true ↔ marker <:+: log ++ poll.grown) ∧
      (r.scan marker (log ++ poll.grown)).2.Read marker (log ++ poll.grown) := by
  cases hold : file with
  | some r' =>
    rw [hold] at hr
    obtain rfl : r' = r := Option.some.inj hr
    obtain ⟨hread, hnone⟩ := hfile r' hold
    refine ⟨?_, hread.scan_snd hm poll.grown⟩
    rw [hread.scan_fst hm, infix_append_iff_endsIn, or_iff_right hnone]
  | none =>
    rw [hold, Option.isNone_none, Bool.true_and] at hr
    split at hr
    · obtain rfl := Option.some.inj hr
      refine ⟨?_, LogReader.read_nil.scan_snd hm (log ++ poll.grown)⟩
      have hnil : ¬ marker <:+: [] := fun h => hm (List.eq_nil_of_infix_nil h)
      have hfirst : marker <:+: [] ++ (log ++ poll.grown) ↔ EndsIn marker [] (log ++ poll.grown) := by
        rw [infix_append_iff_endsIn, or_iff_right hnil]
      rw [List.nil_append] at hfirst
      rw [hfirst]
      exact LogReader.read_nil.scan_fst hm (log ++ poll.grown)
    · cases hr

theorem waitFrom_ready_iff (dlog : String) (hm : marker ≠ []) {file : Option LogReader} {log : List UInt8}
    (hfile : ∀ r, file = some r → r.Read marker log ∧ ¬ marker <:+: log) (polls : List DutPoll) :
    waitFrom dlog marker file log polls = .ready ↔ Announced marker file.isSome log polls := by
  induction polls generalizing file log with
  | nil =>
    refine iff_of_false nofun ?_
    rintro ⟨before, poll, later, hsplit, -⟩
    exact absurd hsplit.symm (List.append_ne_nil_of_right_ne_nil before (List.cons_ne_nil poll later))
  | cons poll polls ih =>
    have hscan := fun r => @scan_after_growth marker file log hm hfile poll r
    have hopen : (if file.isNone && poll.opens then some {} else file).isSome =
        (file.isSome || poll.opens) := by
      cases file <;> cases poll.opens <;> rfl
    rw [waitFrom, announced_cons, ← hopen]
    revert hscan
    generalize (if file.isNone && poll.opens then some {} else file) = opened
    intro hscan
    cases opened with
    | none =>
      have hih := @ih none (log ++ poll.grown) nofun
      simp only [Option.map_none, Option.any_none, Bool.false_eq_true, if_false, Option.isSome_none,
        false_and, false_or]
      cases poll.exited with
      | true => simp
      | false => simpa using hih
    | some r =>
      obtain ⟨hfound, hread⟩ := hscan r rfl
      simp only [Option.map_some, Option.any_some, Option.isSome_some, true_and, hfound]
      by_cases hmarker : marker <:+: log ++ poll.grown
      · simp [hmarker]
      · have hih := @ih (some (r.scan marker (log ++ poll.grown)).2) (log ++ poll.grown) (by
          intro r' hr'
          obtain rfl := Option.some.inj hr'
          exact ⟨hread, hmarker⟩)
        simp only [hmarker, if_false, false_or]
        cases poll.exited with
        | true => simp
        | false => simpa using hih

/-- **The barrier** says the DUT is ready exactly when, at one of the polls before the ceiling and with no
exit seen before it, the log is open and holds the marker. -/
theorem waitForDutReady_iff (dlog : String) (hm : marker ≠ []) (polls : List DutPoll) :
    waitForDutReady dlog marker polls = .ready ↔
      Announced marker false [] (polls.take dutReadyMaxPolls) := by
  refine @waitFrom_ready_iff marker dlog hm none [] (fun r h => ?_) _
  cases h

end Tc8Harness.Orchestrator
