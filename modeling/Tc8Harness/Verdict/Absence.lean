import Tc8Harness.Verdict.RunStats

/-!
# Absence qualification

`absence_qualification.h` and the verdict type of `verdict.h`. A verdict that claims an absence holds
only under three hypotheses: the capture was whole, the window covered the bound the final declares,
and the DUT answered a liveness anchor afterwards. `qualifyAbsence_cases` says exactly when
such a verdict survives.

`std::int64_t` is `Int64`, whose arithmetic wraps as the compiled code's does. `boundUs` is the same
bound over the natural numbers; `resolveAbsenceBound_valid` relates the two, and `BoundWraps` is the
case in which they part.
-/

namespace Tc8Harness.Sce

/-! ## Verdicts -/

inductive VerdictClass where
  | pass
  | fail
  | inconclusive
  | error
  | running
  deriving DecidableEq, Repr

structure Verdict where
  cls : VerdictClass := .running
  reason : String := ""
  role : String := ""
  bound : String := ""
  deriving DecidableEq, Repr

inductive LivenessAnchorOutcome where
  | kNotRun
  | kAnswered
  | kUnanswered
  | kNoDutAddress
  | kUnavailable
  deriving DecidableEq, Repr

/-- A pass no frame decided, or a fail whose role says its evidence is a silence. -/
def claimsAbsence (v : Verdict) (frameDecided : Bool) : Bool :=
  if frameDecided then false
  else if v.cls = .pass then true
  else decide (v.cls = .fail) &&
    (v.role == "observed_quiescence" || v.role == "fault_injection_inert")

/-! ## The declared bound -/

structure AbsenceBound where
  declared : Bool := false
  valid : Bool := false
  us : Int64 := 0
  deriving DecidableEq, Repr

/-- The digit loop: `none` at a character that is no digit, or when the value read so far is already
past the guard. -/
def readDigits : List Char → Int64 → Option Int64
  | [], value => some value
  | c :: cs, value =>
    if c < '0' ∨ c > '9' ∨ value > (1 : Int64) <<< 40 then none
    else readDigits cs (value * 10 + Int64.ofNat (c.toNat - '0'.toNat))

/-- The unit of a literal bound and the characters before it. -/
def splitUnit (bound : List Char) : Option (Nat × List Char) :=
  if bound.length > 2 ∧ bound.drop (bound.length - 2) = ['m', 's'] then
    some (1000, bound.take (bound.length - 2))
  else if bound.length > 1 ∧ bound.getLast? = some 's' then
    some (1000 * 1000, bound.take (bound.length - 1))
  else none

def resolveAbsenceBound (bound : String) (paramListenTimeMs : UInt32) : AbsenceBound :=
  if bound = "" then {}
  else if bound = "ParamListenTime" then
    { declared := true, valid := true, us := Int64.ofNat paramListenTimeMs.toNat * 1000 }
  else
    match splitUnit bound.toList with
    | none => { declared := true }
    | some (scale, digits) =>
      match readDigits digits 0 with
      | none => { declared := true }
      | some value => { declared := true, valid := true, us := value * Int64.ofNat scale }

/-- The slack a measured window may fall short by. -/
def kWindowMeasurementSlackUs : Int64 := 20 * 1000

/-! ### The bound it stands for -/

/-- The decimal value of a digit string read after `value`. -/
def decimal : List Char → Nat → Option Nat
  | [], value => some value
  | c :: cs, value =>
    if c < '0' ∨ c > '9' then none else decimal cs (value * 10 + (c.toNat - '0'.toNat))

/-- The declared bound in microseconds, over the natural numbers. -/
def boundUs (bound : String) (paramListenTimeMs : UInt32) : Option Nat :=
  if bound = "ParamListenTime" then some (paramListenTimeMs.toNat * 1000)
  else
    match splitUnit bound.toList with
    | none => none
    | some (scale, digits) => (decimal digits 0).map (· * scale)

/-- A literal bound that the digit loop accepts although its microseconds do not fit 63 bits. -/
def BoundWraps (bound : String) : Prop :=
  bound ≠ "ParamListenTime" ∧ ∃ scale digits, splitUnit bound.toList = some (scale, digits) ∧
    (readDigits digits 0).isSome = true ∧ ∃ n, decimal digits 0 = some n ∧ 2 ^ 63 ≤ n * scale

/-- The guard keeps the value below `2 ^ 44`, so the digit loop itself never wraps. -/
theorem readDigits_decimal {digits : List Char} {value r : Int64} {n : Nat}
    (hv : value.toInt = n) (hn : n ≤ 10 * 2 ^ 40 + 9) (h : readDigits digits value = some r) :
    ∃ m, decimal digits n = some m ∧ r.toInt = m ∧ m ≤ 10 * 2 ^ 40 + 9 := by
  induction digits generalizing value n with
  | nil =>
    simp only [readDigits, Option.some.injEq] at h
    subst h
    exact ⟨n, rfl, hv, hn⟩
  | cons c cs ih =>
    simp only [readDigits, Option.ite_none_left_eq_some, not_or] at h
    obtain ⟨⟨hlo, hhi, hguard⟩, h⟩ := h
    have hsmall : n ≤ 2 ^ 40 := by
      have hle := Int64.lt_iff_toInt_lt.not.1 hguard
      have hg : ((1 : Int64) <<< 40).toInt = 2 ^ 40 := by decide
      rw [hg, hv] at hle
      omega
    have hdigit : c.toNat - '0'.toNat ≤ 9 := by
      have hc : c.toNat ≤ '9'.toNat := Nat.le_of_not_lt hhi
      have h9 : '9'.toNat = 57 := rfl
      have h0 : '0'.toNat = 48 := rfl
      omega
    have hnext : (value * 10 + Int64.ofNat (c.toNat - '0'.toNat)).toInt =
        ((n * 10 + (c.toNat - '0'.toNat) : Nat) : Int) := by
      have h10 : (10 : Int64).toInt = 10 := by decide
      have hmul : (value * 10).toInt = n * 10 := by
        rw [Int64.toInt_mul, hv, h10, Int.bmod_eq_of_le (by omega) (by omega)]
      rw [Int64.toInt_add, hmul, Int64.toInt_ofNat_of_lt (by omega),
        Int.bmod_eq_of_le (by omega) (by omega)]
      omega
    obtain ⟨m, hm, hr⟩ := ih hnext (by omega) h
    refine ⟨m, ?_, hr⟩
    simp only [decimal, if_neg (not_or.2 ⟨hlo, hhi⟩), hm]

private theorem splitUnit_scale {bound digits : List Char} {scale : Nat}
    (h : splitUnit bound = some (scale, digits)) : scale ≤ 1000 * 1000 := by
  unfold splitUnit at h
  split at h
  · cases h
    omega
  · simp only [Option.ite_none_right_eq_some, Option.some.injEq, Prod.mk.injEq] at h
    omega

/-- A valid bound that does not wrap holds the number of microseconds it stands for. -/
theorem resolveAbsenceBound_valid {bound : String} {ixit : UInt32}
    (h : (resolveAbsenceBound bound ixit).valid = true) (hwrap : ¬ BoundWraps bound) :
    ∃ n, boundUs bound ixit = some n ∧ n < 2 ^ 63 ∧
      (resolveAbsenceBound bound ixit).us.toInt = n := by
  have hixit : ixit.toNat < 2 ^ 32 := ixit.toNat_lt
  unfold resolveAbsenceBound at h ⊢
  unfold boundUs
  split at h
  · cases h
  · split at h
    · next hempty hparam =>
      refine ⟨ixit.toNat * 1000, by rw [if_pos hparam], by omega, ?_⟩
      have h1000 : (1000 : Int64).toInt = 1000 := by decide
      rw [if_neg hempty, if_pos hparam, Int64.toInt_mul, h1000,
        Int64.toInt_ofNat_of_lt (by omega), Int.bmod_eq_of_le (by omega) (by omega)]
      omega
    · next hempty hparam =>
      rw [if_neg hempty, if_neg hparam, if_neg hparam]
      cases hsplit : splitUnit bound.toList with
      | none => simp [hsplit] at h
      | some unit =>
        obtain ⟨scale, digits⟩ := unit
        cases hread : readDigits digits 0 with
        | none => simp [hsplit, hread] at h
        | some value =>
          obtain ⟨m, hm, hval, -⟩ := readDigits_decimal (n := 0) rfl (by omega) hread
          have hscale := splitUnit_scale hsplit
          have hlt : m * scale < 2 ^ 63 := by
            by_contra hbig
            exact hwrap ⟨hparam, scale, digits, hsplit, by simp [hread], m, hm, Nat.le_of_not_lt hbig⟩
          refine ⟨m * scale, by simp [hm], hlt, ?_⟩
          simp only [hread]
          rw [Int64.toInt_mul, hval, Int64.toInt_ofNat_of_lt (by omega), ← Int.natCast_mul,
            Int.bmod_eq_of_le (by omega) (by omega)]

/-! ## Qualifying a verdict -/

/-- The facts the command gathered. `captureReason` names the hole when the capture is not whole. -/
structure AbsenceFacts where
  frameDecided : Bool := false
  captureWhole : Bool := false
  captureReason : String := ""
  windowUs : Option Int64 := none
  bound : AbsenceBound := {}
  anchor : LivenessAnchorOutcome := .kNotRun

def livenessAnchorReason : LivenessAnchorOutcome → String
  | .kUnanswered => "liveness_anchor_unanswered_absence_unproven"
  | .kNoDutAddress => "liveness_anchor_no_dut_address_absence_unproven"
  | .kUnavailable => "liveness_anchor_unavailable_absence_unproven"
  | .kNotRun => ""
  | .kAnswered => ""

/-- The first of the capture and window hypotheses that does not hold, as its reason; empty when both
hold. -/
def unestablishedBeforeAnchor (v : Verdict) (facts : AbsenceFacts) : String :=
  if !facts.captureWhole then
    if facts.captureReason = "" then "capture_completeness_unknown_absence_unproven"
    else facts.captureReason
  else if !facts.bound.declared then
    if v.role = "observed_quiescence" then "absence_bound_undeclared_absence_unproven" else ""
  else if !facts.bound.valid then "absence_bound_unparseable_absence_unproven"
  else
    match facts.windowUs with
    | none => "window_shorter_than_bound_absence_unproven"
    | some w =>
      if w + kWindowMeasurementSlackUs < facts.bound.us then
        "window_shorter_than_bound_absence_unproven"
      else ""

def needsLivenessAnchor (v : Verdict) (facts : AbsenceFacts) : Bool :=
  claimsAbsence v facts.frameDecided && unestablishedBeforeAnchor v facts == ""

def downgrade (reason : String) : Verdict :=
  { cls := .inconclusive, reason := reason, role := "property_unobserved" }

/-- The verdict after the absence hypotheses. -/
def qualifyAbsence (v : Verdict) (facts : AbsenceFacts) : Verdict :=
  if !claimsAbsence v facts.frameDecided then v
  else
    let before := unestablishedBeforeAnchor v facts
    if before ≠ "" then downgrade before
    else if facts.anchor ≠ .kAnswered then
      let reason := livenessAnchorReason facts.anchor
      downgrade (if reason = "" then livenessAnchorReason .kUnavailable else reason)
    else v

/-- The window check as the code makes it, on wrapped microseconds. -/
def BoundMet (v : Verdict) (bound : AbsenceBound) (windowUs : Option Int64) : Prop :=
  if bound.declared then
    bound.valid = true ∧ ∃ w, windowUs = some w ∧ bound.us ≤ w + kWindowMeasurementSlackUs
  else v.role ≠ "observed_quiescence"

theorem unestablishedBeforeAnchor_eq_empty_iff (v : Verdict) (facts : AbsenceFacts) :
    unestablishedBeforeAnchor v facts = "" ↔
      facts.captureWhole = true ∧ BoundMet v facts.bound facts.windowUs := by
  unfold unestablishedBeforeAnchor BoundMet
  cases facts.captureWhole with
  | false =>
    simp only [Bool.not_false, if_true, Bool.false_eq_true, false_and, iff_false]
    split
    · decide
    · assumption
  | true =>
    cases facts.bound.declared with
    | false => by_cases hrole : v.role = "observed_quiescence" <;> simp [hrole]
    | true =>
      cases facts.bound.valid with
      | false => simp
      | true =>
        cases facts.windowUs with
        | none => simp
        | some w =>
          by_cases hlt : w + kWindowMeasurementSlackUs < facts.bound.us
          · simp [hlt]
          · simp [Int64.not_lt.1 hlt, hlt]

/-- **When an absence survives**: a verdict comes out as it went in if it claims no absence or all
three hypotheses hold, and is inconclusive otherwise. -/
theorem qualifyAbsence_cases (v : Verdict) (facts : AbsenceFacts) :
    let holds := claimsAbsence v facts.frameDecided = true →
      (facts.captureWhole = true ∧ BoundMet v facts.bound facts.windowUs) ∧
        facts.anchor = .kAnswered
    (holds → qualifyAbsence v facts = v) ∧
      (¬ holds → (qualifyAbsence v facts).cls = .inconclusive) := by
  intro holds
  cases hclaims : claimsAbsence v facts.frameDecided with
  | false =>
    have hself : qualifyAbsence v facts = v := by simp [qualifyAbsence, hclaims]
    exact ⟨fun _ => hself, fun hnot => absurd (fun h => by rw [hclaims] at h; cases h) hnot⟩
  | true =>
    have hiff := unestablishedBeforeAnchor_eq_empty_iff v facts
    by_cases hbefore : unestablishedBeforeAnchor v facts = ""
    · by_cases hanchor : facts.anchor = .kAnswered
      · refine ⟨fun _ => by simp [qualifyAbsence, hclaims, hbefore, hanchor], fun hnot => ?_⟩
        exact absurd (fun _ => ⟨hiff.1 hbefore, hanchor⟩) hnot
      · refine ⟨fun h => absurd (h hclaims).2 hanchor, fun _ => ?_⟩
        simp [qualifyAbsence, hclaims, hbefore, hanchor, downgrade]
    · refine ⟨fun h => absurd (hiff.2 (h hclaims).1) hbefore, fun _ => ?_⟩
      simp [qualifyAbsence, hclaims, hbefore, downgrade]

/-- Of a bound that does not wrap, the code's window check is the one over the integers: the window
falls short by no more than the slack. -/
theorem BoundMet.covers {v : Verdict} {bound : String} {ixit : UInt32} {windowUs : Option Int64}
    (h : BoundMet v (resolveAbsenceBound bound ixit) windowUs) (hne : bound ≠ "")
    (hwrap : ¬ BoundWraps bound) :
    ∃ n, boundUs bound ixit = some n ∧ ∃ w, windowUs = some w ∧
      (n : Int) ≤ w.toInt + kWindowMeasurementSlackUs.toInt := by
  have hdecl : (resolveAbsenceBound bound ixit).declared = true := by
    unfold resolveAbsenceBound
    rw [if_neg hne]
    repeat' split
    all_goals rfl
  rw [BoundMet, if_pos hdecl] at h
  obtain ⟨hvalid, w, hw, hle⟩ := h
  obtain ⟨n, hn, hsmall, hus⟩ := resolveAbsenceBound_valid hvalid hwrap
  refine ⟨n, hn, w, hw, ?_⟩
  rw [Int64.le_iff_toInt_le, hus, Int64.toInt_add] at hle
  have hslack : kWindowMeasurementSlackUs.toInt = 20000 := by decide
  have hlo := w.le_toInt
  have hhi := w.toInt_lt
  -- A sum that leaves the range is past every bound that does not.
  by_cases hfits : w.toInt + kWindowMeasurementSlackUs.toInt < 2 ^ 63
  · rwa [Int.bmod_eq_of_le (by omega) (by omega)] at hle
  · omega

/-! ## Which bounds are exact

The digit loop's guard looks at the value before a digit is read and never at the scaled one, so the
last digit and the scaling are unchecked. For milliseconds that is harmless. -/

/-- A `<n>s` literal whose microseconds do not fit 63 bits although no proper prefix of its digits
is past the guard. -/
def SecondsPastRange (bound : String) : Prop :=
  ∃ digits n, bound.toList = digits ++ ['s'] ∧ decimal digits 0 = some n ∧
    9223372036855 ≤ n ∧ n ≤ 10 * 2 ^ 40 + 9

theorem decimal_append (xs ys : List Char) (value : Nat) :
    decimal (xs ++ ys) value = (decimal xs value).bind (decimal ys) := by
  induction xs generalizing value with
  | nil => rfl
  | cons c cs ih =>
    simp only [List.cons_append, decimal]
    split
    · rfl
    · exact ih _

theorem le_of_decimal {digits : List Char} {value n : Nat} (h : decimal digits value = some n) :
    value ≤ n := by
  induction digits generalizing value with
  | nil => exact (Option.some.inj h).le
  | cons c cs ih =>
    simp only [decimal, Option.ite_none_left_eq_some] at h
    have := ih h.2
    omega

/-- The guard passes every digit string whose value is at most one digit past it. -/
theorem readDigits_of_decimal {digits : List Char} {value : Int64} {m n : Nat}
    (hv : value.toInt = m) (h : decimal digits m = some n) (hn : n ≤ 10 * 2 ^ 40 + 9) :
    (readDigits digits value).isSome = true := by
  induction digits generalizing value m with
  | nil => rfl
  | cons c cs ih =>
    simp only [decimal, Option.ite_none_left_eq_some, not_or] at h
    obtain ⟨⟨hlo, hhi⟩, h⟩ := h
    have hle := le_of_decimal h
    have hg : ((1 : Int64) <<< 40).toInt = 2 ^ 40 := by decide
    have hguard : ¬ value > (1 : Int64) <<< 40 := by
      rw [gt_iff_lt, Int64.lt_iff_toInt_lt, hg, hv]
      omega
    have hnext : (value * 10 + Int64.ofNat (c.toNat - '0'.toNat)).toInt =
        ((m * 10 + (c.toNat - '0'.toNat) : Nat) : Int) := by
      have h10 : (10 : Int64).toInt = 10 := by decide
      have hmul : (value * 10).toInt = m * 10 := by
        rw [Int64.toInt_mul, hv, h10, Int.bmod_eq_of_le (by omega) (by omega)]
      rw [Int64.toInt_add, hmul, Int64.toInt_ofNat_of_lt (by omega),
        Int.bmod_eq_of_le (by omega) (by omega)]
      omega
    rw [readDigits, if_neg (by simp [hlo, hhi, hguard])]
    exact ih hnext h

/-- Digits before an `s` are split off as seconds: an `m` among them is no digit. -/
theorem splitUnit_seconds {digits : List Char} {n : Nat} (h : decimal digits 0 = some n)
    (hne : digits ≠ []) : splitUnit (digits ++ ['s']) = some (1000 * 1000, digits) := by
  have hlen : 0 < digits.length := List.length_pos_of_ne_nil hne
  have hms : ¬ ((digits ++ ['s']).length > 2 ∧
      (digits ++ ['s']).drop ((digits ++ ['s']).length - 2) = ['m', 's']) := by
    rintro ⟨-, hdrop⟩
    obtain ⟨front, hfront⟩ : ∃ front, digits = front ++ ['m'] := by
      refine ⟨(digits ++ ['s']).take ((digits ++ ['s']).length - 2), ?_⟩
      have hall := List.take_append_drop ((digits ++ ['s']).length - 2) (digits ++ ['s'])
      rw [hdrop, show ['m', 's'] = ['m'] ++ ['s'] from rfl, ← List.append_assoc] at hall
      exact (List.append_cancel_right hall).symm
    rw [hfront, decimal_append] at h
    obtain ⟨a, -, ha⟩ := Option.bind_eq_some_iff.1 h
    simp [decimal] at ha
  rw [splitUnit, if_neg hms, if_pos ⟨by simp [hlen], by simp⟩]
  simp

theorem secondsPastRange_of_wraps {bound : String} (h : BoundWraps bound) :
    SecondsPastRange bound := by
  obtain ⟨-, scale, digits, hsplit, hread, n, hn, hbig⟩ := h
  obtain ⟨r, hr⟩ := Option.isSome_iff_exists.1 hread
  obtain ⟨m, hm, -, hle⟩ := readDigits_decimal (n := 0) rfl (by omega) hr
  obtain rfl : m = n := Option.some.inj (hm.symm.trans hn)
  unfold splitUnit at hsplit
  split at hsplit
  · cases hsplit
    omega
  · simp only [Option.ite_none_right_eq_some, Option.some.injEq, Prod.mk.injEq] at hsplit
    obtain ⟨⟨-, hlast⟩, rfl, rfl⟩ := hsplit
    refine ⟨_, m, ?_, hn, by omega, hle⟩
    obtain ⟨front, hfront⟩ := List.getLast?_eq_some_iff.1 hlast
    simp [hfront]

theorem SecondsPastRange.resolves {bound : String} (h : SecondsPastRange bound) (ixit : UInt32) :
    (resolveAbsenceBound bound ixit).valid = true ∧
      ∃ n, boundUs bound ixit = some n ∧ 2 ^ 63 ≤ n := by
  obtain ⟨digits, n, hbound, hn, hlo, hhi⟩ := h
  have hne : digits ≠ [] := by
    rintro rfl
    cases hn
    omega
  have hsplit : splitUnit bound.toList = some (1000 * 1000, digits) := by
    rw [hbound]
    exact splitUnit_seconds hn hne
  have hempty : bound ≠ "" := by
    rintro rfl
    simp at hbound
  have hparam : bound ≠ "ParamListenTime" := by
    rintro rfl
    have hlast := congrArg List.getLast? hbound
    rw [List.getLast?_concat] at hlast
    revert hlast
    decide
  have hzero : (0 : Int64).toInt = (0 : Nat) := rfl
  obtain ⟨r, hr⟩ := Option.isSome_iff_exists.1 (readDigits_of_decimal hzero hn hhi)
  refine ⟨?_, n * (1000 * 1000), ?_, by omega⟩
  · simp [resolveAbsenceBound, hempty, hparam, hsplit, hr]
  · simp [boundUs, hparam, hsplit, hn]

/-- What a valid bound promises: the exact number of microseconds, and that every window accepted
against it covers that time up to the slack. -/
def ExactBound (bound : String) (paramListenTimeMs : UInt32) : Prop :=
  (resolveAbsenceBound bound paramListenTimeMs).valid = true →
    ∃ n, boundUs bound paramListenTimeMs = some n ∧
      (resolveAbsenceBound bound paramListenTimeMs).us.toInt = n ∧
      0 ≤ (resolveAbsenceBound bound paramListenTimeMs).us ∧
      ∀ v facts, facts.bound = resolveAbsenceBound bound paramListenTimeMs →
        unestablishedBeforeAnchor v facts = "" →
        ∃ w, facts.windowUs = some w ∧ (n : Int) - 20 * 1000 ≤ w.toInt

/-- **Absence bounds are exact** but for the seconds that are past 63 bits and not yet past the digit
loop's guard. -/
theorem absence_bound_exact_iff (bound : String) (paramListenTimeMs : UInt32) :
    ExactBound bound paramListenTimeMs ↔ ¬ SecondsPastRange bound := by
  constructor
  · intro hexact hpast
    obtain ⟨hvalid, n, hn, hbig⟩ := hpast.resolves paramListenTimeMs
    obtain ⟨m, hm, hus, -⟩ := hexact hvalid
    obtain rfl : n = m := Option.some.inj (hn.symm.trans hm)
    have hlt := (resolveAbsenceBound bound paramListenTimeMs).us.toInt_lt
    omega
  · intro hpast hvalid
    have hwrap : ¬ BoundWraps bound := fun h => hpast (secondsPastRange_of_wraps h)
    obtain ⟨n, hn, -, hus⟩ := resolveAbsenceBound_valid hvalid hwrap
    have hne : bound ≠ "" := by
      rintro rfl
      simp [resolveAbsenceBound] at hvalid
    refine ⟨n, hn, hus, ?_, ?_⟩
    · rw [Int64.le_iff_toInt_le, hus]
      exact Int.natCast_nonneg n
    · intro v facts hfacts haccepted
      have hmet := ((unestablishedBeforeAnchor_eq_empty_iff v facts).1 haccepted).2
      rw [hfacts] at hmet
      obtain ⟨n', hn', w, hw, hle⟩ := hmet.covers hne hwrap
      obtain rfl : n = n' := Option.some.inj (hn.symm.trans hn')
      have hslack : kWindowMeasurementSlackUs.toInt = 20 * 1000 := by decide
      exact ⟨w, hw, by omega⟩

/-- `9223372036855s` is read as a valid bound of a negative time, which an empty window covers. -/
theorem seconds_bound_wraps :
    (resolveAbsenceBound "9223372036855s" 3000).valid = true ∧
      boundUs "9223372036855s" 3000 = some 9223372036855000000 ∧
      (resolveAbsenceBound "9223372036855s" 3000).us.toInt = -9223372036854551616 ∧
      unestablishedBeforeAnchor { cls := .pass }
        { captureWhole := true, windowUs := some 0,
          bound := resolveAbsenceBound "9223372036855s" 3000 } = "" ∧
      ¬ ExactBound "9223372036855s" 3000 := by
  refine ⟨by decide, by decide, by decide, by decide, ?_⟩
  intro h
  obtain ⟨n, hn, hus, hnonneg, -⟩ := h (by decide)
  revert hnonneg
  decide

end Tc8Harness.Sce
