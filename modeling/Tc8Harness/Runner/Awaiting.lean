import Tc8Harness.Runner.TestRunner

/-!
# Awaiting an observation

`StimulusObservation::mark`, `scan` and `wait` of `stimulus_observation.cpp`: a stimulus drains the
capture until a held frame after its cursor satisfies a predicate, or the wait ends.

The pump and the clock are what the environment answers: `pump n` is the `n`-th drain, with the items it
dispatched into the held capture and its status, and `clock n` the `n`-th reading. Both may answer
anything. The loop has no bound of its own, so it runs on fuel, and a result is one that all larger fuels
give as well. That a pump is bound (the stimulus is running) is taken for granted; without one the code
aborts.
-/

namespace Tc8Harness.Sce

/-- `ICapturePump::Status`. -/
inductive DrainStatus where
  | kOk
  | kEndOfCapture
  | kError
  | kStopped
  deriving DecidableEq, Repr

inductive BoundElapsed where
  | kUnperformed
  | kQuiescence
  deriving DecidableEq, Repr

structure StimulusObservation (E : Type) where
  held : List (Held E) := []
  unperformed : List String := []
  drains : Nat := 0
  clockReads : Nat := 0

namespace StimulusObservation

variable {E : Type}

section

variable (pump : Nat → List (Held E) × DrainStatus) (clock : Nat → Int)

def drain (s : StimulusObservation E) : DrainStatus × StimulusObservation E :=
  ((pump s.drains).2, { s with held := s.held ++ (pump s.drains).1, drains := s.drains + 1 })

def now (s : StimulusObservation E) : Int × StimulusObservation E :=
  (clock s.clockReads, { s with clockReads := s.clockReads + 1 })

/-- The cursor, a position in what is held. -/
def mark (s : StimulusObservation E) : Nat × StimulusObservation E :=
  let s := (s.drain pump).2
  (s.held.length, s)

/-- The loop of `scan` over the items from `position` on. -/
def scanFrom (predicate : E → Bool) : List (Held E) → Nat → Nat × Option E
  | [], position => (position, none)
  | h :: rest, position =>
    match h.item with
    | .event ev =>
      if predicate ev then (position, some ev) else scanFrom predicate rest (position + 1)
    | .marker _ => scanFrom predicate rest (position + 1)

def scan (s : StimulusObservation E) (position : Nat) (predicate : E → Bool) : Nat × Option E :=
  scanFrom predicate (s.held.drop position) position

/-- `not_seen`: its report reads the clock once more. -/
def notSeen (name : String) (s : StimulusObservation E) : StimulusObservation E :=
  let (_, s) := s.now clock
  { s with unperformed := s.unperformed ++ [name] }

/-- The loop of `wait`. -/
def waitFrom (name : String) (predicate : E → Bool) (deadline : Int) (onBound : BoundElapsed) :
    Nat → Nat → StimulusObservation E → Option (Option E × StimulusObservation E)
  | 0, _, _ => none
  | fuel + 1, position, s =>
    let (status, s) := s.drain pump
    let (position, found) := s.scan position predicate
    match found with
    | some ev => some (some ev, (s.now clock).2)
    | none =>
      match status with
      | .kOk =>
        let (now, s) := s.now clock
        if now ≥ deadline then
          match onBound with
          | .kQuiescence => some (none, s)
          | .kUnperformed => some (none, s.notSeen clock name)
        else waitFrom name predicate deadline onBound fuel position s
      | .kEndOfCapture => some (none, s.notSeen clock name)
      | .kError => some (none, s.notSeen clock name)
      | .kStopped => some (none, s)

def wait (fuel : Nat) (name : String) (cursor : Nat) (predicate : E → Bool) (bound : Int)
    (onBound : BoundElapsed) (s : StimulusObservation E) : Option (Option E × StimulusObservation E) :=
  let (started, s) := s.now clock
  s.waitFrom pump clock name predicate (started + bound) onBound fuel (min cursor s.held.length)

def awaitObservation (fuel : Nat) (name : String) (cursor : Nat) (predicate : E → Bool) (bound : Int)
    (s : StimulusObservation E) : Option (Option E × StimulusObservation E) :=
  s.wait pump clock fuel name cursor predicate bound .kUnperformed

def observeWithin (fuel : Nat) (name : String) (cursor : Nat) (predicate : E → Bool) (bound : Int)
    (s : StimulusObservation E) : Option (Option E × StimulusObservation E) :=
  s.wait pump clock fuel name cursor predicate bound .kQuiescence

end

/-! ## Scanning -/

/-- The frame an item is, if it is one that satisfies the predicate; a marker is none. -/
def satisfying (predicate : E → Bool) (h : Held E) : Option E :=
  match h.item with
  | .event ev => if predicate ev then some ev else none
  | .marker _ => none

/-- The first held frame that satisfies the predicate. -/
def firstMatch (predicate : E → Bool) (items : List (Held E)) : Option E :=
  items.findSome? (satisfying predicate)

variable {predicate : E → Bool}

theorem firstMatch_append (items more : List (Held E)) : firstMatch predicate (items ++ more) =
    (firstMatch predicate items).or (firstMatch predicate more) := List.findSome?_append

/-- The loop finds the first match, or goes to the end. -/
theorem scanFrom_eq (items : List (Held E)) (position : Nat) :
    (scanFrom predicate items position).2 = firstMatch predicate items ∧
      (firstMatch predicate items = none →
        (scanFrom predicate items position).1 = position + items.length) := by
  induction items generalizing position with
  | nil => exact ⟨rfl, fun _ => rfl⟩
  | cons h rest ih =>
    rcases h with ⟨ev | name, idx⟩
    · cases hev : predicate ev with
      | true => simp [scanFrom, firstMatch, satisfying, hev]
      | false =>
        have hrest := ih (position + 1)
        simp only [scanFrom, hev, firstMatch, satisfying, List.findSome?_cons, List.length_cons] at hrest ⊢
        refine ⟨hrest.1, fun hnone => ?_⟩
        have := hrest.2 hnone
        simp only [Bool.false_eq_true, if_false]
        omega
    · have hrest := ih (position + 1)
      simp only [scanFrom, firstMatch, satisfying, List.findSome?_cons, List.length_cons] at hrest ⊢
      refine ⟨hrest.1, fun hnone => ?_⟩
      have := hrest.2 hnone
      omega

/-! ## Rounds -/

section Rounds

variable (pump : Nat → List (Held E) × DrainStatus) (clock : Nat → Int) (s : StimulusObservation E)

/-- What the first `n` drains of a wait dispatch. -/
def drained (n : Nat) : List (Held E) := (List.range n).flatMap fun j => (pump (s.drains + j)).1

/-- What is held once the wait's drain `i` has run, counted from zero. -/
def heldAfter (i : Nat) : List (Held E) := s.held ++ s.drained pump (i + 1)

/-- The wait goes on after drain `i`, unless it found a match: the capture is running and the reading that
follows is below the deadline. -/
def GoesOn (bound : Int) (i : Nat) : Prop :=
  (pump (s.drains + i)).2 = .kOk ∧ clock (s.clockReads + 1 + i) < clock s.clockReads + bound

/-- The loop's state as its round `i` begins. -/
def atRound (i : Nat) : StimulusObservation E where
  held := s.held ++ s.drained pump i
  unperformed := s.unperformed
  drains := s.drains + i
  clockReads := s.clockReads + 1 + i

/-- What a miss in round `i` records: nothing when the run was stopped, nor when the bound elapsed and
the silence is what was asked for. -/
def recorded (name : String) (onBound : BoundElapsed) (i : Nat) : List String :=
  match (pump (s.drains + i)).2, onBound with
  | .kOk, .kUnperformed => [name]
  | .kOk, .kQuiescence => []
  | .kEndOfCapture, _ => [name]
  | .kError, _ => [name]
  | .kStopped, _ => []

theorem drained_succ (n : Nat) : s.drained pump (n + 1) = s.drained pump n ++ (pump (s.drains + n)).1 := by
  simp [drained, List.range_succ, List.flatMap_append]

theorem drain_atRound (i : Nat) : (s.atRound pump i).drain pump =
    ((pump (s.drains + i)).2,
      { s.atRound pump (i + 1) with clockReads := s.clockReads + 1 + i }) := by
  simp [drain, atRound, drained_succ, Nat.add_assoc]

/-- The scan has passed over what did not match: from here it finds what it would find from the
cursor. -/
structure Resumes (predicate : E → Bool) (position i p : Nat) : Prop where
  le : p ≤ (s.atRound pump i).held.length
  finds : ∀ more, firstMatch predicate (((s.atRound pump i).held ++ more).drop position) =
    firstMatch predicate (((s.atRound pump i).held ++ more).drop p)

variable {pump clock s} {position i p fuel : Nat} {name : String} {bound : Int} {onBound : BoundElapsed}

theorem Resumes.scan_eq (h : s.Resumes pump predicate position i p) :
    (scanFrom predicate ((s.heldAfter pump i).drop p) p).2 =
      firstMatch predicate ((s.heldAfter pump i).drop position) := by
  have hheld : s.heldAfter pump i = (s.atRound pump i).held ++ (pump (s.drains + i)).1 := by
    rw [heldAfter, drained_succ, atRound, List.append_assoc]
  rw [(scanFrom_eq _ p).1, hheld, h.finds]

/-- Without a match the scan stops at the end of what is held. -/
theorem Resumes.next (h : s.Resumes pump predicate position i p)
    (hnone : firstMatch predicate ((s.heldAfter pump i).drop position) = none) (hle : position ≤ s.held.length) :
    s.Resumes pump predicate position (i + 1)
      (scanFrom predicate ((s.heldAfter pump i).drop p) p).1 := by
  have hstop : (scanFrom predicate ((s.heldAfter pump i).drop p) p).1 = (s.heldAfter pump i).length := by
    have hfound := h.scan_eq
    rw [hnone, (scanFrom_eq _ p).1] at hfound
    have hple : p ≤ (s.heldAfter pump i).length := by
      have := h.le
      simp only [atRound, heldAfter, drained_succ, List.length_append] at this ⊢
      omega
    rw [(scanFrom_eq _ p).2 hfound, List.length_drop]
    omega
  have hheld : (s.atRound pump (i + 1)).held = s.heldAfter pump i := rfl
  refine ⟨by rw [hstop, hheld], fun more => ?_⟩
  have hlong : position ≤ (s.heldAfter pump i).length := by
    simp only [heldAfter, List.length_append]
    omega
  rw [hstop, hheld, List.drop_left, List.drop_append_of_le_length hlong, firstMatch_append, hnone,
    Option.none_or]

/-! ## One round -/

section Round

variable (h : s.Resumes pump predicate position i p)
include h

/-- A round that finds a match returns it. -/
theorem Resumes.found {ev : E} (hfound : firstMatch predicate ((s.heldAfter pump i).drop position) = some ev) :
    (s.atRound pump i).waitFrom pump clock name predicate (clock s.clockReads + bound) onBound (fuel + 1) p =
      some (some ev, s.atRound pump (i + 1)) := by
  have hscan := h.scan_eq
  rw [hfound] at hscan
  rw [waitFrom, drain_atRound]
  simp only [scan]
  rw [show (s.atRound pump (i + 1)).held = s.heldAfter pump i from rfl, hscan]
  rfl

/-- A round that finds none and does not end the wait hands over to the next. -/
theorem Resumes.goes_on (hnone : firstMatch predicate ((s.heldAfter pump i).drop position) = none)
    (hon : s.GoesOn pump clock bound i) :
    (s.atRound pump i).waitFrom pump clock name predicate (clock s.clockReads + bound) onBound (fuel + 1) p =
      (s.atRound pump (i + 1)).waitFrom pump clock name predicate (clock s.clockReads + bound) onBound fuel
        (scanFrom predicate ((s.heldAfter pump i).drop p) p).1 := by
  have hscan := h.scan_eq
  rw [hnone] at hscan
  rw [waitFrom, drain_atRound]
  simp only [scan]
  rw [show (s.atRound pump (i + 1)).held = s.heldAfter pump i from rfl, hscan, hon.1]
  have hbelow : ¬ clock (s.clockReads + 1 + i) ≥ clock s.clockReads + bound := not_le.2 hon.2
  exact if_neg hbelow

/-- A round that finds none and ends the wait is a miss. -/
theorem Resumes.missed (hnone : firstMatch predicate ((s.heldAfter pump i).drop position) = none)
    (hends : ¬ s.GoesOn pump clock bound i) :
    ∃ s' : StimulusObservation E, (∀ fuel, (s.atRound pump i).waitFrom pump clock name predicate
        (clock s.clockReads + bound) onBound (fuel + 1) p = some (none, s')) ∧
      s'.held = s.heldAfter pump i ∧ s'.drains = s.drains + (i + 1) ∧
      s'.unperformed = s.unperformed ++ s.recorded pump name onBound i := by
  have hscan := h.scan_eq
  rw [hnone] at hscan
  simp only [waitFrom, drain_atRound, scan]
  rw [show (s.atRound pump (i + 1)).held = s.heldAfter pump i from rfl, hscan]
  unfold recorded
  cases hstatus : (pump (s.drains + i)).2 with
  | kOk =>
    have hreached : clock (s.clockReads + 1 + i) ≥ clock s.clockReads + bound :=
      not_lt.1 fun hlt => hends ⟨hstatus, hlt⟩
    cases onBound with
    | kUnperformed => exact ⟨_, fun _ => if_pos hreached, rfl, rfl, rfl⟩
    | kQuiescence => exact ⟨_, fun _ => if_pos hreached, rfl, rfl, (List.append_nil _).symm⟩
  | kEndOfCapture => exact ⟨_, fun _ => rfl, rfl, rfl, rfl⟩
  | kError => exact ⟨_, fun _ => rfl, rfl, rfl, rfl⟩
  | kStopped => exact ⟨_, fun _ => rfl, rfl, rfl, (List.append_nil _).symm⟩

end Round

/-! ## All rounds -/

variable (pump s) in
theorem heldAfter_append (i n : Nat) : ∃ more, s.heldAfter pump (i + n) = s.heldAfter pump i ++ more := by
  induction n with
  | zero => exact ⟨[], by simp⟩
  | succ n ih =>
    obtain ⟨more, hmore⟩ := ih
    refine ⟨more ++ (pump (s.drains + (i + n + 1))).1, ?_⟩
    rw [← List.append_assoc, ← hmore, heldAfter, heldAfter, ← Nat.add_assoc, drained_succ pump s (i + n + 1),
      List.append_assoc]

/-- Later drains do not change a match. -/
theorem firstMatch_heldAfter (hle : position ≤ s.held.length) (i n : Nat) {ev : E}
    (hfound : firstMatch predicate ((s.heldAfter pump i).drop position) = some ev) :
    firstMatch predicate ((s.heldAfter pump (i + n)).drop position) = some ev := by
  obtain ⟨more, hmore⟩ := heldAfter_append pump s i n
  have hlong : position ≤ (s.heldAfter pump i).length := by
    simp only [heldAfter, List.length_append]
    omega
  rw [hmore, List.drop_append_of_le_length hlong, firstMatch_append, hfound]
  rfl

variable (name onBound) in
/-- Where a match has been drained by round `i + n` and the wait did not end before it, it is returned. -/
theorem Resumes.run_found (h : s.Resumes pump predicate position i p) (hle : position ≤ s.held.length)
    (n : Nat) (hon : ∀ j, i ≤ j → j < i + n → s.GoesOn pump clock bound j) {ev : E}
    (hfound : firstMatch predicate ((s.heldAfter pump (i + n)).drop position) = some ev) :
    ∃ j ≤ i + n, ∀ fuel, n < fuel → (s.atRound pump i).waitFrom pump clock name predicate
      (clock s.clockReads + bound) onBound fuel p = some (some ev, s.atRound pump (j + 1)) := by
  induction n generalizing i p with
  | zero =>
    refine ⟨i, Nat.le_refl _, fun fuel hfuel => ?_⟩
    obtain ⟨fuel, rfl⟩ := Nat.exists_eq_succ_of_ne_zero (Nat.ne_of_gt hfuel)
    exact h.found hfound
  | succ n ih =>
    cases hearly : firstMatch predicate ((s.heldAfter pump i).drop position) with
    | some ev' =>
      have hsame := firstMatch_heldAfter hle i (n + 1) hearly
      rw [hfound] at hsame
      cases hsame
      refine ⟨i, Nat.le_add_right _ _, fun fuel hfuel => ?_⟩
      obtain ⟨fuel, rfl⟩ := Nat.exists_eq_succ_of_ne_zero (Nat.ne_of_gt (Nat.zero_lt_of_lt hfuel))
      exact h.found hearly
    | none =>
      obtain ⟨j, hj, hrest⟩ := ih (h.next hearly hle)
        (fun j hij hjn => hon j (by omega) (by omega)) (by rw [Nat.add_assoc, Nat.add_comm 1 n]; exact hfound)
      refine ⟨j, by omega, fun fuel hfuel => ?_⟩
      obtain ⟨fuel, rfl⟩ := Nat.exists_eq_succ_of_ne_zero (Nat.ne_of_gt (Nat.zero_lt_of_lt hfuel))
      rw [h.goes_on hearly (hon i (Nat.le_refl _) (by omega))]
      exact hrest fuel (by omega)

variable (name onBound) in
/-- Where none has been drained by the round that ends the wait, it is a miss. -/
theorem Resumes.run_missed (h : s.Resumes pump predicate position i p) (hle : position ≤ s.held.length)
    (n : Nat) (hon : ∀ j, i ≤ j → j < i + n → s.GoesOn pump clock bound j)
    (hends : ¬ s.GoesOn pump clock bound (i + n))
    (hnone : firstMatch predicate ((s.heldAfter pump (i + n)).drop position) = none) :
    ∃ s' : StimulusObservation E, (∀ fuel, n < fuel → (s.atRound pump i).waitFrom pump clock name predicate
        (clock s.clockReads + bound) onBound fuel p = some (none, s')) ∧
      s'.held = s.heldAfter pump (i + n) ∧ s'.drains = s.drains + (i + n + 1) ∧
      s'.unperformed = s.unperformed ++ s.recorded pump name onBound (i + n) := by
  induction n generalizing i p with
  | zero =>
    obtain ⟨s', hmissed, hheld, hdrains, hrecorded⟩ := h.missed hnone hends
    refine ⟨s', fun fuel hfuel => ?_, hheld, hdrains, hrecorded⟩
    obtain ⟨fuel, rfl⟩ := Nat.exists_eq_succ_of_ne_zero (Nat.ne_of_gt hfuel)
    exact hmissed fuel
  | succ n ih =>
    have hearly : firstMatch predicate ((s.heldAfter pump i).drop position) = none := by
      cases hfound : firstMatch predicate ((s.heldAfter pump i).drop position) with
      | none => rfl
      | some ev =>
        rw [firstMatch_heldAfter hle i (n + 1) hfound] at hnone
        cases hnone
    have hround : i + 1 + n = i + (n + 1) := by omega
    obtain ⟨s', hrest, hheld, hdrains, hrecorded⟩ := ih (h.next hearly hle)
      (fun j hij hjn => hon j (by omega) (by omega)) (by rw [hround]; exact hends)
      (by rw [hround]; exact hnone)
    rw [hround] at hheld hdrains hrecorded
    refine ⟨s', fun fuel hfuel => ?_, hheld, hdrains, hrecorded⟩
    obtain ⟨fuel, rfl⟩ := Nat.exists_eq_succ_of_ne_zero (Nat.ne_of_gt (Nat.zero_lt_of_lt hfuel))
    rw [h.goes_on hearly (hon i (Nat.le_refl _) (by omega))]
    exact hrest fuel (by omega)

/-! ## What a wait returns -/

/-- The wait's last drain: all before it left the wait going on, and it does not. -/
def LastDrain (pump : Nat → List (Held E) × DrainStatus) (clock : Nat → Int) (s : StimulusObservation E)
    (bound : Int) (k : Nat) : Prop :=
  (∀ j < k, s.GoesOn pump clock bound j) ∧ ¬ s.GoesOn pump clock bound k

/-- A wait from `cursor` is exact; `call` gives its result for each fuel. -/
structure WaitExact (pump : Nat → List (Held E) × DrainStatus) (clock : Nat → Int)
    (s : StimulusObservation E) (name : String) (cursor : Nat) (predicate : E → Bool) (bound : Int)
    (onBound : BoundElapsed) (call : Nat → Option (Option E × StimulusObservation E)) : Prop where
  /-- With a last drain, the wait returns the first match held by then, and nothing if there is none. It
  records its name only for a miss, as `recorded` says, and what is held is what was held followed by
  what its drains dispatched, in order. -/
  returns : ∀ k, s.LastDrain pump clock bound k → ∃ s' : StimulusObservation E,
    (∀ fuel, k < fuel → call fuel =
      some (firstMatch predicate ((s.heldAfter pump k).drop (min cursor s.held.length)), s')) ∧
    (∃ j ≤ k, s'.held = s.heldAfter pump j ∧ s'.drains = s.drains + (j + 1)) ∧
    s'.unperformed = s.unperformed ++
      (if (firstMatch predicate ((s.heldAfter pump k).drop (min cursor s.held.length))).isSome then []
        else s.recorded pump name onBound k)
  /-- A match is returned too when the wait would go on for ever without it. -/
  returns_match : (∀ j, s.GoesOn pump clock bound j) → ∀ k ev,
    firstMatch predicate ((s.heldAfter pump k).drop (min cursor s.held.length)) = some ev →
      ∃ j ≤ k, ∀ fuel, k < fuel → call fuel = some (some ev, s.atRound pump (j + 1))
  /-- From a cursor that `mark` gave, only what was drained after the mark is considered. -/
  after_mark : ∀ s₀ : StimulusObservation E, cursor = (s₀.mark pump).1 →
    (s₀.mark pump).2.held <+: s.held → ∀ k, ∃ later,
      s.heldAfter pump k = (s₀.mark pump).2.held ++ later ∧
        (s.heldAfter pump k).drop (min cursor s.held.length) = later

theorem wait_eq (fuel cursor : Nat) : s.wait pump clock fuel name cursor predicate bound onBound =
    (s.atRound pump 0).waitFrom pump clock name predicate (clock s.clockReads + bound) onBound fuel
      (min cursor s.held.length) := by
  simp [wait, now, atRound, drained]

theorem resumes_zero (hle : position ≤ s.held.length) :
    s.Resumes pump predicate position 0 position := by
  refine ⟨?_, fun _ => rfl⟩
  simp only [atRound, drained, List.length_append]
  omega

theorem wait_exact (pump : Nat → List (Held E) × DrainStatus) (clock : Nat → Int)
    (s : StimulusObservation E) (name : String) (cursor : Nat) (predicate : E → Bool) (bound : Int)
    (onBound : BoundElapsed) : WaitExact pump clock s name cursor predicate bound onBound
      (fun fuel => s.wait pump clock fuel name cursor predicate bound onBound) where
  returns k hlast := by
    have hle : min cursor s.held.length ≤ s.held.length := Nat.min_le_right _ _
    have hstart : s.Resumes pump predicate (min cursor s.held.length) 0 _ := resumes_zero hle
    simp only [wait_eq]
    cases hfound : firstMatch predicate ((s.heldAfter pump k).drop (min cursor s.held.length)) with
    | some ev =>
      obtain ⟨j, hj, hruns⟩ := hstart.run_found name onBound hle k
        (fun j _ hjk => hlast.1 j (by omega)) (by rw [Nat.zero_add]; exact hfound)
      exact ⟨_, hruns, ⟨j, by omega, rfl, rfl⟩, by simp [atRound]⟩
    | none =>
      obtain ⟨s', hruns, hheld, hdrains, hrecorded⟩ := hstart.run_missed name onBound hle k
        (fun j _ hjk => hlast.1 j (by omega))
        (by rw [Nat.zero_add]; exact hlast.2) (by rw [Nat.zero_add]; exact hfound)
      rw [Nat.zero_add] at hheld hdrains hrecorded
      exact ⟨s', hruns, ⟨k, Nat.le_refl _, hheld, hdrains⟩, by simpa using hrecorded⟩
  returns_match hon k ev hfound := by
    have hle : min cursor s.held.length ≤ s.held.length := Nat.min_le_right _ _
    have hstart : s.Resumes pump predicate (min cursor s.held.length) 0 _ := resumes_zero hle
    simp only [wait_eq]
    obtain ⟨j, hj, hruns⟩ := hstart.run_found name onBound hle k
      (fun j _ _ => hon j) (by rw [Nat.zero_add]; exact hfound)
    exact ⟨j, by omega, hruns⟩
  after_mark s₀ hcursor hheld k := by
    obtain ⟨more, hmore⟩ := hheld
    refine ⟨more ++ s.drained pump (k + 1), by rw [heldAfter, ← hmore, List.append_assoc], ?_⟩
    have hmin : min cursor s.held.length = (s₀.mark pump).2.held.length := by
      rw [hcursor, ← hmore, List.length_append]
      exact Nat.min_eq_left (Nat.le_add_right _ _)
    rw [hmin, heldAfter, ← hmore, List.append_assoc, List.drop_left]

/-- **Awaiting an observation.** Both waits are exact; they differ in what the bound elapsing records. -/
theorem awaiting_exact (pump : Nat → List (Held E) × DrainStatus) (clock : Nat → Int)
    (s : StimulusObservation E) (name : String) (cursor : Nat) (predicate : E → Bool) (bound : Int) :
    WaitExact pump clock s name cursor predicate bound .kUnperformed
        (fun fuel => s.awaitObservation pump clock fuel name cursor predicate bound) ∧
      WaitExact pump clock s name cursor predicate bound .kQuiescence
        (fun fuel => s.observeWithin pump clock fuel name cursor predicate bound) :=
  ⟨wait_exact pump clock s name cursor predicate bound .kUnperformed,
    wait_exact pump clock s name cursor predicate bound .kQuiescence⟩

end Rounds

end StimulusObservation

end Tc8Harness.Sce
