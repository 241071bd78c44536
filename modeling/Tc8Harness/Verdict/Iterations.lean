import Mathlib

/-!
# The verdict of a case made of iterations

`iteration_verdict.h`: the conjunction of what the iterations reported. The worst iteration decides, the
first of equals, and a run that was stopped early says nothing unless an iteration that did run already
did worse than skip.

`worstFrom_first` says what the loop finds. The two results a non-passing list can have (`interrupted`
and `decidedBy`) are definitions of their own, and `conjoinIterations_cases` says which one is reached.
A vector is taken to be shorter than `int` can count.
-/

namespace Tc8Harness.Sce

structure IterationOutcome where
  /-- Empty when no verdict line was printed. -/
  verdict : String
  exitCode : Int := 0
  deriving DecidableEq, Repr

structure ConjoinedVerdict where
  verdict : String
  exitCode : Int := 0
  deciding : Int := -1
  deriving DecidableEq, Repr

/-- The text before the first colon, the whole text without one. -/
def verdictClassToken (value : String) : String := String.ofList (value.toList.takeWhile (· ≠ ':'))

/-- The text after the first colon, nothing without one. -/
def verdictReason (value : String) : String := String.ofList (value.toList.dropWhile (· ≠ ':')).tail

def verdictSeverity (cls : String) : Int :=
  if cls = "fail" then 4
  else if cls = "error" then 3
  else if cls = "inconclusive" then 2
  else if cls = "skip" then 1
  else if cls = "pass" then 0 else 4

namespace IterationOutcome

def severity (o : IterationOutcome) : Int :=
  if o.verdict = "" then 4 else verdictSeverity (verdictClassToken o.verdict)

/-- The class the conjunction reports for an iteration. -/
def cls (o : IterationOutcome) : String :=
  if o.verdict = "" then "fail" else verdictClassToken o.verdict

def reason (o : IterationOutcome) : String :=
  if o.verdict = "" then "did_not_return_pass_verdict" else verdictReason o.verdict

end IterationOutcome

/-! ## The loop -/

/-- `worst` and `worst_severity`. -/
structure Worst where
  index : Int := -1
  severity : Int := -1
  deriving DecidableEq, Repr

def worstFrom (i : Nat) (w : Worst) : List IterationOutcome → Worst
  | [] => w
  | o :: rest => worstFrom (i + 1) (if o.severity > w.severity then ⟨i, o.severity⟩ else w) rest

/-- The run was stopped before all iterations ran. -/
def interrupted (errorExitCode : Int) (w : Worst) : ConjoinedVerdict where
  verdict := "error:interrupted_before_all_iterations_ran"
  exitCode := errorExitCode
  deciding := w.index

/-- The iteration `u` at `worst` decided. -/
def decidedBy (u : IterationOutcome) (worst : Int) : ConjoinedVerdict where
  verdict := u.cls ++ ":iteration_" ++ toString (worst + 1) ++ (if u.reason = "" then "" else "_" ++ u.reason)
  exitCode := u.exitCode
  deciding := worst

def conjoinIterations (outcomes : List IterationOutcome) (expected : Nat) (errorExitCode : Int) :
    ConjoinedVerdict :=
  let w := worstFrom 0 {} outcomes
  if outcomes.length < expected ∧ w.severity < 2 then interrupted errorExitCode w
  else if w.severity ≤ 0 then { verdict := "pass" }
  else decidedBy (outcomes.getD w.index.toNat ⟨"", 0⟩) w.index

/-! ## Severities -/

/-- The first iteration with a property. -/
structure First (P : IterationOutcome → Prop) (outcomes : List IterationOutcome) (i : Nat)
    (o : IterationOutcome) : Prop where
  at_index : outcomes[i]? = some o
  holds : P o
  before : ∀ j < i, ∀ o', outcomes[j]? = some o' → ¬ P o'

/-- An iteration that reported a fail, nothing, or a class the taxonomy does not have. -/
def Failing (o : IterationOutcome) : Prop :=
  o.verdict = "" ∨ verdictClassToken o.verdict ∉ ["pass", "skip", "inconclusive", "error"]

/-- No iteration did worse. -/
def WorstOf (outcomes : List IterationOutcome) (o : IterationOutcome) : Prop :=
  ∀ o' ∈ outcomes, o'.severity ≤ o.severity

theorem verdictSeverity_cases (cls : String) :
    (cls = "pass" ∧ verdictSeverity cls = 0) ∨ (cls = "skip" ∧ verdictSeverity cls = 1) ∨
      (cls = "inconclusive" ∧ verdictSeverity cls = 2) ∨ (cls = "error" ∧ verdictSeverity cls = 3) ∨
      (cls ∉ ["pass", "skip", "inconclusive", "error"] ∧ verdictSeverity cls = 4) := by
  unfold verdictSeverity
  split_ifs with hfail herror hinconclusive hskip hpass
  · simp [hfail]
  · simp [herror]
  · simp [hinconclusive]
  · simp [hskip]
  · simp [hpass]
  · simp [herror, hinconclusive, hskip, hpass]

theorem severity_of_failing {o : IterationOutcome} (h : Failing o) : o.severity = 4 := by
  unfold IterationOutcome.severity
  split_ifs with hempty
  · rfl
  · have hclass := h.resolve_left hempty
    rcases verdictSeverity_cases (verdictClassToken o.verdict) with h | h | h | h | h
    · exact absurd (by simp [h.1]) hclass
    · exact absurd (by simp [h.1]) hclass
    · exact absurd (by simp [h.1]) hclass
    · exact absurd (by simp [h.1]) hclass
    · exact h.2

/-- What an iteration that is not failing may have reported, with its severity. -/
theorem severity_of_not_failing {o : IterationOutcome} (h : ¬ Failing o) :
    o.cls = verdictClassToken o.verdict ∧ o.severity = verdictSeverity o.cls ∧
      (o.cls = "pass" ∨ o.cls = "skip" ∨ o.cls = "inconclusive" ∨ o.cls = "error") := by
  obtain ⟨hempty, hclass⟩ := not_or.1 h
  have hcls : o.cls = verdictClassToken o.verdict := if_neg hempty
  refine ⟨hcls, ?_, ?_⟩
  · rw [hcls]
    exact if_neg hempty
  · rw [hcls]
    simpa using not_not.1 hclass

theorem severity_eq_zero_iff (o : IterationOutcome) :
    o.severity = 0 ↔ verdictClassToken o.verdict = "pass" := by
  unfold IterationOutcome.severity
  split_ifs with hempty
  · rw [hempty]
    decide
  · rcases verdictSeverity_cases (verdictClassToken o.verdict) with h | h | h | h | h
    all_goals
      simp only [h.2]
    · simp [h.1]
    · simp [h.1]
    · simp [h.1]
    · simp [h.1]
    · have hne : verdictClassToken o.verdict ≠ "pass" := by
        intro heq
        exact h.1 (by simp [heq])
      simp [hne]

theorem severity_bounds (o : IterationOutcome) : 0 ≤ o.severity ∧ o.severity ≤ 4 := by
  unfold IterationOutcome.severity
  split_ifs
  · decide
  · rcases verdictSeverity_cases (verdictClassToken o.verdict) with h | h | h | h | h
    all_goals
      rw [h.2]
      decide

/-! ## What the loop finds -/

/-- What the loop holds after the outcomes: nothing yet, or the first of the worst. -/
def Found (outcomes : List IterationOutcome) (w : Worst) : Prop :=
  (outcomes = [] ∧ w = {}) ∨
    ∃ (i : Nat) (o : IterationOutcome), outcomes[i]? = some o ∧ w = ⟨i, o.severity⟩ ∧ WorstOf outcomes o ∧
      ∀ j < i, ∀ o', outcomes[j]? = some o' → o'.severity < o.severity

/-- One turn of the loop. -/
theorem Found.next {done : List IterationOutcome} {w : Worst} (h : Found done w) (o : IterationOutcome) :
    Found (done ++ [o]) (if o.severity > w.severity then ⟨done.length, o.severity⟩ else w) := by
  refine Or.inr ?_
  rcases h with ⟨rfl, rfl⟩ | ⟨i, u, hu, rfl, hworst, hbefore⟩
  · have hpos : o.severity > ({} : Worst).severity := by
      have := (severity_bounds o).1
      show o.severity > -1
      omega
    rw [if_pos hpos]
    exact ⟨0, o, rfl, rfl, by simp [WorstOf], by simp⟩
  · have hi : i < done.length := (List.getElem?_eq_some_iff.1 hu).1
    split_ifs with hgt
    · refine ⟨done.length, o, by simp, rfl, ?_, ?_⟩
      · intro o' ho'
        rcases List.mem_append.1 ho' with hmem | hmem
        · exact le_trans (hworst o' hmem) (le_of_lt hgt)
        · rw [List.mem_singleton.1 hmem]
      · intro j hj o' ho'
        rw [List.getElem?_append_left hj] at ho'
        exact lt_of_le_of_lt (hworst o' (List.mem_of_getElem? ho')) hgt
    · refine ⟨i, u, by rw [List.getElem?_append_left hi]; exact hu, rfl, ?_, ?_⟩
      · intro o' ho'
        rcases List.mem_append.1 ho' with hmem | hmem
        · exact hworst o' hmem
        · rw [List.mem_singleton.1 hmem]
          exact not_lt.1 hgt
      · intro j hj o' ho'
        rw [List.getElem?_append_left (by omega)] at ho'
        exact hbefore j hj o' ho'

theorem worstFrom_found {done : List IterationOutcome} {w : Worst} (h : Found done w)
    (rest : List IterationOutcome) : Found (done ++ rest) (worstFrom done.length w rest) := by
  induction rest generalizing done w with
  | nil => rwa [List.append_nil]
  | cons o rest ih =>
    have hnext := ih (h.next o)
    rw [List.append_assoc, List.length_append] at hnext
    exact hnext

theorem worstFrom_zero_found (outcomes : List IterationOutcome) : Found outcomes (worstFrom 0 {} outcomes) :=
  worstFrom_found (Or.inl ⟨rfl, rfl⟩) outcomes

/-- **The three results.** An early stop with nothing worse than a skip; every iteration passed; or the
first of the worst decided. -/
theorem conjoinIterations_cases (outcomes : List IterationOutcome) (expected : Nat) (errorExitCode : Int) :
    (outcomes.length < expected ∧ (∀ o ∈ outcomes, o.severity < 2) ∧
        ∃ w, conjoinIterations outcomes expected errorExitCode = interrupted errorExitCode w) ∨
      (expected ≤ outcomes.length ∧ (∀ o ∈ outcomes, o.severity = 0) ∧
        conjoinIterations outcomes expected errorExitCode = { verdict := "pass" }) ∨
      ∃ i o, First (WorstOf outcomes) outcomes i o ∧ 0 < o.severity ∧
        (expected ≤ outcomes.length ∨ 2 ≤ o.severity) ∧
        conjoinIterations outcomes expected errorExitCode = decidedBy o i := by
  unfold conjoinIterations
  dsimp only
  rcases worstFrom_zero_found outcomes with ⟨rfl, hw⟩ | ⟨i, o, ho, hw, hworst, hbefore⟩
  · rw [hw]
    split_ifs with hshort hpass
    · exact .inl ⟨hshort.1, by simp, _, rfl⟩
    · exact .inr (.inl ⟨by simpa using hshort, by simp, rfl⟩)
    · exact absurd (show (-1 : Int) ≤ 0 by decide) hpass
  · rw [hw]
    have hlt : ∀ n : Int, o.severity < n → ∀ o' ∈ outcomes, o'.severity < n :=
      fun n hn o' ho' => lt_of_le_of_lt (hworst o' ho') hn
    split_ifs with hshort hpass
    · exact .inl ⟨hshort.1, hlt 2 hshort.2, _, rfl⟩
    · have hzero : ∀ o' ∈ outcomes, o'.severity = 0 := fun o' ho' =>
        le_antisymm (le_trans (hworst o' ho') hpass) (severity_bounds o').1
      refine .inr (.inl ⟨?_, hzero, rfl⟩)
      have hlow : o.severity < 2 := by
        have : o.severity ≤ 0 := hpass
        omega
      exact not_lt.1 fun hlen => hshort ⟨hlen, hlow⟩
    · have hfirst : First (WorstOf outcomes) outcomes i o :=
        { at_index := ho
          holds := hworst
          before := fun j hj o' ho' hworst' =>
            absurd (hworst' o (List.mem_of_getElem? ho)) (not_le.2 (hbefore j hj o' ho')) }
      refine .inr (.inr ⟨i, o, hfirst, not_le.1 hpass, ?_, ?_⟩)
      · rcases Nat.lt_or_ge outcomes.length expected with hlen | hlen
        · exact .inr (not_lt.1 fun hlow => hshort ⟨hlen, hlow⟩)
        · exact .inl hlen
      · show decidedBy (outcomes.getD i ⟨"", 0⟩) i = decidedBy o i
        rw [List.getD_eq_getElem?_getD, ho]
        rfl

/-! ## What the verdict line says -/

/-- The verdict line has the class and names the iteration at `i`, counted from one. -/
def Names (verdict cls : String) (i : Nat) : Prop :=
  ∃ tail : String, (tail = "" ∨ ∃ reason, tail = "_" ++ reason) ∧
    verdict = cls ++ ":iteration_" ++ toString (i + 1) ++ tail

theorem verdictClassToken_no_colon (value : String) : ':' ∉ (verdictClassToken value).toList := by
  intro hmem
  rw [verdictClassToken, String.toList_ofList] at hmem
  have := List.mem_takeWhile_imp hmem
  simp at this

theorem cls_no_colon (o : IterationOutcome) : ':' ∉ o.cls.toList := by
  unfold IterationOutcome.cls
  split
  · decide
  · exact verdictClassToken_no_colon _

/-- A line that names an iteration has the class it is named with. -/
theorem Names.cls {verdict cls : String} {i : Nat} (h : Names verdict cls i) (hcls : ':' ∉ cls.toList) :
    verdictClassToken verdict = cls := by
  obtain ⟨tail, -, rfl⟩ := h
  have hall : ∀ c ∈ cls.toList, decide (c ≠ ':') = true := fun c hc =>
    decide_eq_true fun heq => hcls (heq ▸ hc)
  rw [verdictClassToken]
  simp only [String.toList_append, List.append_assoc]
  rw [List.takeWhile_append_of_pos hall]
  have hcolon : ":iteration_".toList = ':' :: "iteration_".toList := rfl
  rw [hcolon, List.cons_append, List.takeWhile_cons_of_neg (by decide), List.append_nil,
    String.ofList_toList]

theorem decidedBy_names (o : IterationOutcome) (i : Nat) : Names (decidedBy o i).verdict o.cls i := by
  refine ⟨if o.reason = "" then "" else "_" ++ o.reason, ?_, rfl⟩
  split
  · exact .inl rfl
  · exact .inr ⟨_, rfl⟩

theorem decidedBy_cls (o : IterationOutcome) (i : Nat) :
    verdictClassToken (decidedBy o i).verdict = o.cls :=
  (decidedBy_names o i).cls (cls_no_colon o)

theorem First.unique {P : IterationOutcome → Prop} {outcomes : List IterationOutcome} {i j : Nat}
    {o u : IterationOutcome} (ho : First P outcomes i o) (hu : First P outcomes j u) : j = i ∧ u = o := by
  have hji : j = i := by
    rcases Nat.lt_trichotomy j i with hlt | heq | hlt
    · exact absurd hu.holds (ho.before j hlt u hu.at_index)
    · exact heq
    · exact absurd ho.holds (hu.before i hlt o ho.at_index)
  have hsame := hu.at_index
  rw [hji, ho.at_index] at hsame
  exact ⟨hji, (Option.some.inj hsame).symm⟩

/-- Where an iteration fails, the first of the worst is the first that fails. -/
theorem First.failing {outcomes : List IterationOutcome} {i j : Nat} {o u : IterationOutcome}
    (ho : First Failing outcomes i o) (hu : First (WorstOf outcomes) outcomes j u) :
    First Failing outcomes j u where
  at_index := hu.at_index
  holds := by
    have hfour : u.severity = 4 := by
      refine le_antisymm (severity_bounds u).2 ?_
      rw [← severity_of_failing ho.holds]
      exact hu.holds o (List.mem_of_getElem? ho.at_index)
    by_contra hnot
    obtain ⟨-, hclass, hcls⟩ := severity_of_not_failing hnot
    rw [hfour] at hclass
    rcases hcls with h | h | h | h
    all_goals
      rw [h] at hclass
      exact absurd hclass (by decide)
  before k hk o' ho' hfail := by
    refine hu.before k hk o' ho' fun u' _ => ?_
    rw [severity_of_failing hfail]
    exact (severity_bounds u').2

/-! ## The conjunction -/

/-- What the verdict of a case says about its iterations. -/
structure IterationConjunction (outcomes : List IterationOutcome) (expected : Nat) (v : ConjoinedVerdict) :
    Prop where
  pass_iff : verdictClassToken v.verdict = "pass" ↔
    outcomes.length = expected ∧ ∀ o ∈ outcomes, verdictClassToken o.verdict = "pass"
  failing : ∀ i o, First Failing outcomes i o →
    verdictClassToken v.verdict = o.cls ∧ Names v.verdict o.cls i ∧ v.deciding = i
  worst : (∀ o ∈ outcomes, ¬ Failing o) →
    (outcomes.length = expected ∨ ∃ o ∈ outcomes, o.cls = "inconclusive" ∨ o.cls = "error") →
    ∀ i o, First (WorstOf outcomes) outcomes i o → o.cls ≠ "pass" →
      verdictClassToken v.verdict = o.cls ∧ Names v.verdict o.cls i ∧ v.deciding = i
  incomplete : outcomes.length < expected → (∀ o ∈ outcomes, o.cls = "pass" ∨ o.cls = "skip") →
    verdictClassToken v.verdict = "error"
  /-- The iteration that is named brings the exit code. -/
  exit_code : verdictClassToken v.verdict ≠ "pass" → verdictClassToken v.verdict ≠ "skip" →
    (∀ i o, Names v.verdict o.cls i → outcomes[i]? = some o → o.exitCode ≠ 0) → v.exitCode ≠ 0

section Conjunction

variable {outcomes : List IterationOutcome} {expected : Nat} {errorExitCode : Int}

theorem severity_lt_two {o : IterationOutcome} (h : o.cls = "pass" ∨ o.cls = "skip") : o.severity < 2 := by
  unfold IterationOutcome.severity
  unfold IterationOutcome.cls at h
  split_ifs at h ⊢ with hempty
  · rcases h with h | h
    all_goals exact absurd h (by decide)
  · rcases h with h | h
    all_goals
      rw [h]
      decide

theorem two_le_severity {o : IterationOutcome} (h : o.cls = "inconclusive" ∨ o.cls = "error") :
    2 ≤ o.severity := by
  unfold IterationOutcome.severity
  unfold IterationOutcome.cls at h
  split_ifs at h ⊢ with hempty
  · decide
  · rcases h with h | h
    all_goals
      rw [h]
      decide

theorem interrupted_cls (errorExitCode : Int) (w : Worst) :
    verdictClassToken (interrupted errorExitCode w).verdict = "error" := by
  show verdictClassToken "error:interrupted_before_all_iterations_ran" = "error"
  decide

theorem interrupted_conjunction (herr : errorExitCode ≠ 0) (hlen : outcomes.length < expected)
    (hlow : ∀ o ∈ outcomes, o.severity < 2) (w : Worst) :
    IterationConjunction outcomes expected (interrupted errorExitCode w) where
  pass_iff := by
    refine iff_of_false ?_ fun h => absurd h.1 (Nat.ne_of_lt hlen)
    rw [interrupted_cls]
    decide
  failing i o h := by
    have := hlow o (List.mem_of_getElem? h.at_index)
    rw [severity_of_failing h.holds] at this
    exact absurd this (by decide)
  worst _ hdone i o ho hne := by
    rcases hdone with heq | ⟨u, hu, hcls⟩
    · exact absurd heq (Nat.ne_of_lt hlen)
    · exact absurd (two_le_severity hcls) (not_le.2 (hlow u hu))
  incomplete _ _ := interrupted_cls errorExitCode w
  exit_code _ _ _ := herr

theorem passed_conjunction (hle : outcomes.length ≤ expected) (hlen : expected ≤ outcomes.length)
    (hzero : ∀ o ∈ outcomes, o.severity = 0) :
    IterationConjunction outcomes expected { verdict := "pass" } where
  pass_iff := iff_of_true (show verdictClassToken "pass" = "pass" by decide)
    ⟨le_antisymm hle hlen, fun o ho => (severity_eq_zero_iff o).1 (hzero o ho)⟩
  failing i o h := by
    have := hzero o (List.mem_of_getElem? h.at_index)
    rw [severity_of_failing h.holds] at this
    exact absurd this (by decide)
  worst hnone _ i o ho hne := by
    have hmem := List.mem_of_getElem? ho.at_index
    obtain ⟨hcls, -, -⟩ := severity_of_not_failing (hnone o hmem)
    exact absurd (hcls.trans ((severity_eq_zero_iff o).1 (hzero o hmem))) hne
  incomplete hlt _ := absurd hlt (Nat.not_lt.2 hlen)
  exit_code hne _ _ := absurd (show verdictClassToken "pass" = "pass" by decide) hne

theorem decided_conjunction {i : Nat} {o : IterationOutcome} (ho : First (WorstOf outcomes) outcomes i o)
    (hpos : 0 < o.severity) (hdone : expected ≤ outcomes.length ∨ 2 ≤ o.severity) :
    IterationConjunction outcomes expected (decidedBy o i) where
  pass_iff := by
    have hmem := List.mem_of_getElem? ho.at_index
    refine iff_of_false ?_ fun h => ?_
    · rw [decidedBy_cls]
      unfold IterationOutcome.cls
      split_ifs with hempty
      · decide
      · intro hpass
        exact absurd ((severity_eq_zero_iff o).2 hpass) (ne_of_gt hpos)
    · exact absurd ((severity_eq_zero_iff o).2 (h.2 o hmem)) (ne_of_gt hpos)
  failing j u hu := by
    obtain ⟨rfl, rfl⟩ := hu.unique (hu.failing ho)
    exact ⟨decidedBy_cls o i, decidedBy_names o i, rfl⟩
  worst _ _ j u hu _ := by
    obtain ⟨rfl, rfl⟩ := hu.unique ho
    exact ⟨decidedBy_cls o i, decidedBy_names o i, rfl⟩
  incomplete hlt hlow := by
    have hsev := severity_lt_two (hlow o (List.mem_of_getElem? ho.at_index))
    rcases hdone with hlen | htwo
    · exact absurd hlt (Nat.not_lt.2 hlen)
    · exact absurd htwo (not_le.2 hsev)
  exit_code _ _ hexit := hexit i o (decidedBy_names o i) ho.at_index

/-- **Iteration conjunction.** The case passes exactly when all its iterations ran and passed; otherwise
the first failing iteration decides, else the first of the worst, and a run that was stopped with
nothing worse than a skip is an error. -/
theorem conjoinIterations_conjunction (hle : outcomes.length ≤ expected) (herr : errorExitCode ≠ 0) :
    IterationConjunction outcomes expected (conjoinIterations outcomes expected errorExitCode) := by
  rcases conjoinIterations_cases outcomes expected errorExitCode with
    ⟨hlen, hlow, w, heq⟩ | ⟨hlen, hzero, heq⟩ | ⟨i, o, ho, hpos, hdone, heq⟩
  · rw [heq]
    exact interrupted_conjunction herr hlen hlow w
  · rw [heq]
    exact passed_conjunction hle hlen hzero
  · rw [heq]
    exact decided_conjunction ho hpos hdone

end Conjunction

/-- A case whose second iteration failed. -/
theorem conjoinIterations_second_failed :
    IterationConjunction [⟨"pass", 0⟩, ⟨"fail:no_dut_rst", 1⟩, ⟨"pass", 0⟩] 3
        (conjoinIterations [⟨"pass", 0⟩, ⟨"fail:no_dut_rst", 1⟩, ⟨"pass", 0⟩] 3 3) ∧
      conjoinIterations [⟨"pass", 0⟩, ⟨"fail:no_dut_rst", 1⟩, ⟨"pass", 0⟩] 3 3 =
        { verdict := "fail:iteration_2_no_dut_rst", exitCode := 1, deciding := 1 } :=
  ⟨conjoinIterations_conjunction (by decide) (by decide), by decide⟩

/-- An unreadable class is reported as it stands, a skip does not decide a run that was stopped early,
and a missing verdict line is a fail with the exit code the iteration had. -/
theorem conjoinIterations_outside_the_taxonomy :
    verdictClassToken (conjoinIterations [⟨"banana", 0⟩] 1 3).verdict ≠ "fail" ∧
      verdictClassToken (conjoinIterations [⟨"skip:no_capability", 2⟩] 2 3).verdict = "error" ∧
      verdictClassToken (conjoinIterations [⟨"", 0⟩] 1 3).verdict = "fail" ∧
      (conjoinIterations [⟨"", 0⟩] 1 3).exitCode = 0 := by
  decide

end Tc8Harness.Sce
