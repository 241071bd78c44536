import Mathlib
import Std.Data.TreeMap.Lemmas
import Tc8Harness.Lib.Observe
import Tc8Harness.Lib.TreeTable

/-!
# Event emission of the DUT service

`DefaultTriggerPolicy` and `EmissionController` of `dut/dut_service/ets_emission.cpp`. A run is a list of
calls of `onTrigger` and `step`, each with the time the clock had; times are in nanoseconds. What a source's
`emit` is called with is what the run shows.

`beats` of an `Arm` is not in the source: it has the number of beats the arm has had.

A beat is fired before the end of the window is looked at, so an arm that has fired and is next due after
its window fires once more (`not_inWindow_stepped_over`). Where no step finds an arm so, a source keeps to
its window (`inWindow`).
-/

namespace Tc8Harness.DutService.Emission

open Observe TreeTable

def seconds (n : Int) : Int := n * 1000000000
def milliseconds (n : Int) : Int := n * 1000000

/-! ## The policy -/

structure Arm where
  next : Int
  stop : Int
  period : Int
  beats : Nat := 0
  deriving DecidableEq, Repr

/-- The arm that `onTrigger` makes at `now`. -/
def Arm.armed (now start duration period : Int) : Arm :=
  { next := now + seconds start, stop := now + seconds start + seconds duration, period := milliseconds period }

/-- The next beat, after one at `now`. Beats missed in a stall are dropped. -/
def Arm.advance (arm : Arm) (now : Int) : Arm :=
  let next := arm.next + arm.period
  { arm with next := if next ≤ now then now + arm.period else next, beats := arm.beats + 1 }

/-- What a turn of the loop of `due` leaves of an arm. -/
def Arm.after (arm : Arm) (now : Int) : Option Arm :=
  if now < arm.next then some arm
  else if arm.period ≤ 0 ∨ arm.stop ≤ now then none
  else some (arm.advance now)

abbrev Arms := Std.TreeMap String Arm

/-- `due`: the names of the sources that fire, and the arms that are left. -/
def due (arms : Arms) (now : Int) : List String × Arms :=
  ((arms.filter fun _ arm => arm.next ≤ now).keys, arms.filterMap fun _ arm => arm.after now)

/-! ## The controller -/

inductive Source where
  | cyclic (name : String)
  | triggered (name : String)
  deriving DecidableEq, Repr

/-- A call of a source's `emit`. -/
structure Beat where
  source : Source
  payload : UInt8
  deriving DecidableEq, Repr

structure Cyclic where
  name : String
  period : Int
  next : Int := 0
  primed : Bool := false
  counter : UInt8 := 0
  deriving DecidableEq, Repr

structure Controller where
  cyclic : List Cyclic := []
  /-- The counter of each triggered source. -/
  triggered : Std.TreeMap String UInt8 := ∅
  arms : Arms := ∅

def addCyclicSource (c : Controller) (name : String) (period : Int) : Controller :=
  { c with cyclic := c.cyclic ++ [{ name, period := milliseconds period }] }

/-- `emplace`, which leaves a source that is there. -/
def addTriggeredSource (c : Controller) (name : String) : Controller :=
  { c with triggered := c.triggered.insertIfNew name 0 }

def onTrigger (c : Controller) (source : String) (now start duration period : Int) : Controller :=
  { c with arms := c.arms.insert source (.armed now start duration period) }

/-- A turn of the first loop of `step`. -/
def Cyclic.step (c : Cyclic) (now : Int) : Cyclic × List Beat :=
  if !c.primed then ({ c with next := now + c.period, primed := true }, [])
  else if now < c.next then (c, [])
  else
    let next := c.next + c.period
    ({ c with next := if next ≤ now then now + c.period else next, counter := c.counter + 1 },
      [⟨.cyclic c.name, c.counter⟩])

/-- The second loop of `step`. -/
def emitAll (triggered : Std.TreeMap String UInt8) : List String → Std.TreeMap String UInt8 × List Beat
  | [] => (triggered, [])
  | name :: names =>
    match triggered[name]? with
    | none => emitAll triggered names
    | some counter =>
      let (left, beats) := emitAll (triggered.insert name (counter + 1)) names
      (left, ⟨.triggered name, counter⟩ :: beats)

def step (c : Controller) (now : Int) : Controller × List Beat :=
  let cycled := c.cyclic.map (·.step now)
  let (ready, arms) := due c.arms now
  let (triggered, beats) := emitAll c.triggered ready
  ({ cyclic := cycled.map Prod.fst, triggered, arms }, cycled.flatMap Prod.snd ++ beats)

/-! ## Runs -/

inductive Call where
  | onTrigger (source : String) (now start duration period : Int)
  | step (now : Int)
  deriving DecidableEq, Repr

/-- What the clock has at the call. -/
def Call.time : Call → Int
  | .onTrigger _ now _ _ _ => now
  | .step now => now

def advance (c : Controller) : Call → Controller
  | .onTrigger source now start duration period => onTrigger c source now start duration period
  | .step now => (step c now).1

/-- The beats of a call, with its time. -/
def shown (c : Controller) : Call → List (Int × Beat)
  | .onTrigger .. => []
  | .step now => (step c now).2.map (now, ·)

/-- The beat is one of the triggered source. -/
def ofSource (name : String) (beat : Int × Beat) : Option (Int × UInt8) :=
  if beat.2.source = .triggered name then some (beat.1, beat.2.payload) else none

/-- The beats of a triggered source over a run: when, and with which byte. -/
def beatsOf (name : String) (c : Controller) (calls : List Call) : List (Int × UInt8) :=
  (observe advance shown c calls).filterMap (ofSource name)

/-! ## What a call is to one source -/

theorem mem_due {arms : Arms} {now : Int} {name : String} :
    name ∈ (due arms now).1 ↔ ∃ arm, arms[name]? = some arm ∧ arm.next ≤ now := by
  rw [due, Std.TreeMap.mem_keys, Std.TreeMap.mem_iff_isSome_getElem?, Std.TreeMap.getElem?_filter']
  simp [Option.any_eq_true]

theorem getElem?_due {arms : Arms} {now : Int} {name : String} :
    (due arms now).2[name]? = arms[name]?.bind (·.after now) := Std.TreeMap.getElem?_filterMap'

theorem emitAll_other {triggered : Std.TreeMap String UInt8} {names : List String} {name : String}
    (h : name ∉ names) : (emitAll triggered names).1[name]? = triggered[name]? ∧
      ∀ now : Int, ((emitAll triggered names).2.map (now, ·)).filterMap (ofSource name) = [] := by
  induction names generalizing triggered with
  | nil => exact ⟨rfl, fun _ => rfl⟩
  | cons name' names ih =>
    have hne : name ≠ name' := List.ne_of_not_mem_cons h
    have hnot : name ∉ names := List.not_mem_of_not_mem_cons h
    rw [emitAll]
    cases triggered[name']? with
    | none => exact ih hnot
    | some counter =>
      obtain ⟨hcounter, hbeats⟩ := @ih (triggered.insert name' (counter + 1)) hnot
      refine ⟨?_, fun now => ?_⟩
      · change (emitAll (triggered.insert name' (counter + 1)) names).1[name]? = _
        rw [hcounter, getElem?_insert, if_neg hne]
      · rw [List.map_cons, List.filterMap_cons_none, hbeats now]
        simp [ofSource, Ne.symm hne]

theorem emitAll_mem {triggered : Std.TreeMap String UInt8} {names : List String} {name : String}
    (hnodup : names.Nodup) (h : name ∈ names) {counter : UInt8} (hcounter : triggered[name]? = some counter) :
    (emitAll triggered names).1[name]? = some (counter + 1) ∧ ∀ now : Int,
      ((emitAll triggered names).2.map (now, ·)).filterMap (ofSource name) = [(now, counter)] := by
  induction names generalizing triggered with
  | nil => nomatch h
  | cons name' names ih =>
    obtain ⟨hnot, hnodup⟩ := List.nodup_cons.mp hnodup
    rw [emitAll]
    by_cases hname : name = name'
    · subst hname
      obtain ⟨hleft, hbeats⟩ := @emitAll_other (triggered.insert name (counter + 1)) names name hnot
      rw [hcounter]
      refine ⟨?_, fun now => ?_⟩
      · change (emitAll (triggered.insert name (counter + 1)) names).1[name]? = _
        rw [hleft, getElem?_insert, if_pos rfl]
      · rw [List.map_cons, List.filterMap_cons_some, hbeats now]
        simp [ofSource]
    · have hmem : name ∈ names := List.mem_of_ne_of_mem hname h
      cases triggered[name']? with
      | none => exact ih hnodup hmem hcounter
      | some counter' =>
        obtain ⟨hleft, hbeats⟩ := @ih (triggered.insert name' (counter' + 1)) hnodup hmem
          (by rw [getElem?_insert, if_neg hname, hcounter])
        refine ⟨hleft, fun now => ?_⟩
        rw [List.map_cons, List.filterMap_cons_none, hbeats now]
        simp [ofSource, Ne.symm hname]

/-- What a call leaves of the arm of a source. -/
def turn (name : String) (arm : Option Arm) : Call → Option Arm
  | .onTrigger source now start duration period =>
    if source = name then some (.armed now start duration period) else arm
  | .step now => arm.bind (·.after now)

/-- When a call fires a source with this arm. -/
def fires (arm : Option Arm) : Call → Option Int
  | .onTrigger .. => none
  | .step now => if arm.any (·.next ≤ now) then some now else none

section Source

variable {c : Controller} {name : String} {counter : UInt8}

theorem arms_advance (call : Call) : (advance c call).arms[name]? = turn name c.arms[name]? call := by
  cases call with
  | onTrigger source now start duration period =>
    change (c.arms.insert source _)[name]? = _
    rw [getElem?_insert, turn]
    by_cases h : name = source
    · rw [if_pos h, if_pos h.symm]
    · rw [if_neg h, if_neg (Ne.symm h)]
  | step now => exact getElem?_due

theorem filterMap_cyclic (now : Int) (cyclic : List Cyclic) :
    (((cyclic.map (·.step now)).flatMap Prod.snd).map (now, ·)).filterMap (ofSource name) = [] := by
  rw [List.filterMap_eq_nil_iff]
  intro beat hbeat
  obtain ⟨b, hb, rfl⟩ := List.mem_map.mp hbeat
  obtain ⟨cycled, hcycled, hb⟩ := List.mem_flatMap.mp hb
  obtain ⟨source, -, rfl⟩ := List.mem_map.mp hcycled
  unfold Cyclic.step at hb
  split_ifs at hb
  · nomatch hb
  · nomatch hb
  · rw [List.mem_singleton.mp hb]
    rfl

/-- **One call**, seen by a triggered source: one beat at most, and only where its arm is due. -/
theorem advance_source (hcounter : c.triggered[name]? = some counter) (call : Call) :
    (shown c call).filterMap (ofSource name) = (fires c.arms[name]? call).toList.map (·, counter) ∧
      (advance c call).triggered[name]? =
        some (if (fires c.arms[name]? call).isSome then counter + 1 else counter) := by
  cases call with
  | onTrigger source now start duration period => exact ⟨rfl, hcounter⟩
  | step now =>
    have hshown : (shown c (.step now)).filterMap (ofSource name) =
        ((emitAll c.triggered (due c.arms now).1).2.map (now, ·)).filterMap (ofSource name) := by
      change (List.map _ (_ ++ _)).filterMap _ = _
      rw [List.map_append, List.filterMap_append, filterMap_cyclic, List.nil_append]
      rfl
    have hnodup : (due c.arms now).1.Nodup := Std.TreeMap.nodup_keys
    rw [hshown]
    change _ ∧ (emitAll c.triggered (due c.arms now).1).1[name]? = _
    by_cases hdue : name ∈ (due c.arms now).1
    · obtain ⟨hleft, hbeats⟩ := emitAll_mem hnodup hdue hcounter
      obtain ⟨arm, harm, hnext⟩ := mem_due.mp hdue
      have hfires : fires c.arms[name]? (.step now) = some now := by simp [fires, harm, hnext]
      rw [hfires, hbeats, hleft]
      exact ⟨rfl, rfl⟩
    · obtain ⟨hleft, hbeats⟩ := emitAll_other hdue
      have hfires : fires c.arms[name]? (.step now) = none := by
        rw [fires, if_neg]
        intro hany
        obtain ⟨arm, harm, hnext⟩ := (Option.any_eq_true _ _).mp hany
        exact hdue (mem_due.mpr ⟨arm, harm, of_decide_eq_true hnext⟩)
      rw [hfires, hbeats, hleft, hcounter]
      exact ⟨rfl, rfl⟩

theorem beatsOf_cons (hcounter : c.triggered[name]? = some counter) (call : Call) (calls : List Call) :
    beatsOf name c (call :: calls) =
      (fires c.arms[name]? call).toList.map (·, counter) ++ beatsOf name (advance c call) calls := by
  rw [beatsOf, observe, List.filterMap_append, (advance_source hcounter call).1]
  rfl

/-- The beats of a triggered source depend on its arm and its counter alone. -/
theorem beatsOf_congr {c' : Controller} (harm : c'.arms[name]? = c.arms[name]?)
    (hcounter : c.triggered[name]? = some counter) (hcounter' : c'.triggered[name]? = some counter)
    (calls : List Call) : beatsOf name c' calls = beatsOf name c calls := by
  induction calls generalizing c c' counter with
  | nil => rfl
  | cons call calls ih =>
    have hnext := (advance_source hcounter call).2
    have hnext' := (advance_source hcounter' call).2
    rw [harm] at hnext'
    rw [beatsOf_cons hcounter, beatsOf_cons hcounter', harm, ih ?_ hnext hnext']
    rw [arms_advance, arms_advance, harm]

/-- A cyclic source changes nothing of a triggered one's beats. -/
theorem beatsOf_addCyclicSource (hcounter : c.triggered[name]? = some counter) (source : String)
    (period : Int) (calls : List Call) :
    beatsOf name (addCyclicSource c source period) calls = beatsOf name c calls := by
  have harm : (addCyclicSource c source period).arms[name]? = c.arms[name]? := rfl
  exact beatsOf_congr harm hcounter hcounter calls

end Source

/-- The times of the beats of a source with this arm. -/
def beatTimes (name : String) : Option Arm → List Call → List Int
  | _, [] => []
  | arm, call :: calls => (fires arm call).toList ++ beatTimes name (turn name arm call) calls

theorem times_beatsOf {c : Controller} {name : String} {counter : UInt8}
    (hcounter : c.triggered[name]? = some counter) (calls : List Call) :
    (beatsOf name c calls).map Prod.fst = beatTimes name c.arms[name]? calls := by
  induction calls generalizing c counter with
  | nil => rfl
  | cons call calls ih =>
    rw [beatsOf_cons hcounter, List.map_append, ih (advance_source hcounter call).2, arms_advance, beatTimes,
      List.map_map]
    congr 1
    exact List.map_id _

/-- The bytes count up from the source's counter. -/
theorem payloads_beatsOf {c : Controller} {name : String} {counter : UInt8}
    (hcounter : c.triggered[name]? = some counter) (calls : List Call) :
    (beatsOf name c calls).map Prod.snd =
      (List.range (beatsOf name c calls).length).map fun i => counter + UInt8.ofNat i := by
  induction calls generalizing c counter with
  | nil => rfl
  | cons call calls ih =>
    have hrest := ih (advance_source hcounter call).2
    rw [beatsOf_cons hcounter]
    cases hfires : fires c.arms[name]? call with
    | none =>
      rw [hfires] at hrest
      exact hrest
    | some now =>
      rw [hfires] at hrest
      change counter :: (beatsOf name (advance c call) calls).map Prod.snd =
        (List.range ((beatsOf name (advance c call) calls).length + 1)).map fun i => counter + UInt8.ofNat i
      rw [hrest, List.range_succ_eq_map, List.map_cons, List.map_map]
      refine congrArg₂ List.cons (by simp) (List.map_congr_left fun i _ => ?_)
      rw [Option.isSome_some, if_pos rfl, Function.comp_apply, Nat.succ_eq_add_one, UInt8.ofNat_add,
        UInt8.add_comm (UInt8.ofNat i), UInt8.add_assoc]
      rfl

/-! ## One arm -/

/-- The times of the steps of a run. -/
def stepTimes (calls : List Call) : List Int :=
  calls.filterMap fun
    | .onTrigger .. => none
    | .step now => some now

/-- The call arms the source. -/
def Call.triggers (name : String) : Call → Bool
  | .onTrigger source .. => source == name
  | .step _ => false

/-- What is asked of the beats of an arm, made at `t` and not replaced over the steps given. -/
structure Window (t start duration period : Int) (steps beats : List Int) : Prop where
  first : beats.head? = steps.find? fun now => t + seconds start ≤ now
  others : ∀ now ∈ beats.tail, now ≤ t + seconds start + seconds duration
  single : period ≤ 0 ∨ duration = 0 →
    beats.length = if steps.any fun now => t + seconds start ≤ now then 1 else 0
  count : ¬ (period ≤ 0 ∨ duration = 0) → (beats.length : Int) ≤ seconds duration / milliseconds period + 1

/-- A step does not find the arm due after its window, once it has had a beat. -/
def Arm.Meets (arm : Arm) (now : Int) : Prop := 0 < arm.beats → arm.next ≤ now → now ≤ arm.stop

instance (arm : Arm) (now : Int) : Decidable (arm.Meets now) := inferInstanceAs (Decidable (_ → _ → _))

/-- The condition on a call in the state that it finds. -/
def Call.Meets (name : String) (arm : Option Arm) : Call → Prop
  | .onTrigger source _ _ duration _ => source = name → 0 ≤ duration
  | .step now => ∀ a ∈ arm, a.Meets now

instance (name : String) (arm : Option Arm) (call : Call) : Decidable (call.Meets name arm) :=
  match call with
  | .onTrigger source _ _ duration _ => inferInstanceAs (Decidable (source = name → 0 ≤ duration))
  | .step now => inferInstanceAs (Decidable (∀ a ∈ arm, a.Meets now))

/-- What is left of an arm with window `[first, stop]` and a positive period after `k` beats. -/
structure Arm.Running (first stop period : Int) (k : Nat) (arm : Arm) : Prop where
  stop_eq : arm.stop = stop
  period_eq : arm.period = period
  period_pos : 0 < period
  beats_eq : arm.beats = k
  next_ge : first + k * period ≤ arm.next

theorem Arm.Running.advance {first stop period now : Int} {k : Nat} {arm : Arm}
    (h : arm.Running first stop period k) : (arm.advance now).Running first stop period (k + 1) := by
  refine ⟨h.stop_eq, h.period_eq, h.period_pos, ?_, ?_⟩
  · rw [← h.beats_eq]
    rfl
  · have hnext := h.next_ge
    have hperiod := h.period_eq
    have hmul : ((k + 1 : Nat) : Int) * period = k * period + period := by push_cast; ring
    have hadvance : arm.next + arm.period ≤ (arm.advance now).next := by
      unfold Arm.advance
      dsimp only
      split_ifs with hmissed
      · exact hmissed.trans (by have := h.period_pos; omega)
      · exact le_rfl
    omega

/-- A source without an arm is silent. -/
theorem beatTimes_none {name : String} {calls : List Call} (h : ∀ call ∈ calls, call.triggers name = false) :
    beatTimes name none calls = [] := by
  induction calls with
  | nil => rfl
  | cons call calls ih =>
    have hcall : fires none call = none ∧ turn name none call = none := by
      have htriggers := h call List.mem_cons_self
      cases call with
      | onTrigger source now start duration period =>
        exact ⟨rfl, if_neg (by simpa [Call.triggers] using htriggers)⟩
      | step now => exact ⟨rfl, rfl⟩
    rw [beatTimes, hcall.1, hcall.2, ih fun call hmem => h call (List.mem_cons_of_mem _ hmem)]
    rfl

/-- The condition, on the calls a source with this arm sees. -/
abbrev Meeting (name : String) (arm : Option Arm) (calls : List Call) : Prop :=
  Along (turn name) (fun arm call => call.Meets name arm) arm calls

theorem after_of_lt {arm : Arm} {now : Int} (h : now < arm.next) : arm.after now = some arm := if_pos h

theorem fires_of_lt {arm : Arm} {now : Int} (h : now < arm.next) : fires (some arm) (.step now) = none := by
  rw [fires, Option.any_some, if_neg]
  simpa using h

theorem fires_of_le {arm : Arm} {now : Int} (h : arm.next ≤ now) : fires (some arm) (.step now) = some now := by
  rw [fires, Option.any_some, if_pos]
  exact decide_eq_true h

theorem turn_other {name source : String} {arm : Option Arm} {now start duration period : Int}
    (h : (Call.onTrigger source now start duration period).triggers name = false) :
    turn name arm (.onTrigger source now start duration period) = arm :=
  if_neg (by simpa [Call.triggers] using h)

/-- The beats of an arm that has had `k` of them: each in the window, and no more of them than fit. -/
theorem Arm.Running.beats {name : String} {first stop period : Int} {k : Nat} {arm : Arm} {calls : List Call}
    (h : arm.Running first stop period k) (hk : 0 < k) (hkept : ∀ call ∈ calls, call.triggers name = false)
    (hmeets : Meeting name (some arm) calls) :
    (∀ now ∈ beatTimes name (some arm) calls, now ≤ stop) ∧
      ∀ n : Nat, (beatTimes name (some arm) calls).length = n + 1 → first + (k + n) * period ≤ stop := by
  induction calls generalizing arm k with
  | nil => exact ⟨fun now hnow => (nomatch hnow), fun n hn => (nomatch hn)⟩
  | cons call calls ih =>
    have hkept' : ∀ call ∈ calls, call.triggers name = false :=
      fun call hmem => hkept call (List.mem_cons_of_mem _ hmem)
    have htail := hmeets.tail
    rw [beatTimes]
    cases call with
    | onTrigger source now start duration period' =>
      rw [turn_other (hkept _ List.mem_cons_self)] at htail ⊢
      exact ih h hk hkept' htail
    | step now =>
      rcases lt_or_ge now arm.next with hearly | hdue
      · rw [fires_of_lt hearly]
        change Meeting name (arm.after now) calls at htail
        change (∀ t ∈ beatTimes name (arm.after now) calls, _) ∧
          ∀ n : Nat, (beatTimes name (arm.after now) calls).length = n + 1 → _
        rw [after_of_lt hearly] at htail ⊢
        exact ih h hk hkept' htail
      · have hin : now ≤ stop := by
          rw [← h.stop_eq]
          exact hmeets.head arm rfl (by rw [h.beats_eq]; exact hk) hdue
        have hnext := h.next_ge
        rw [fires_of_le hdue]
        change Meeting name (arm.after now) calls at htail
        change (∀ t ∈ now :: beatTimes name (arm.after now) calls, _) ∧
          ∀ n : Nat, (beatTimes name (arm.after now) calls).length + 1 = n + 1 → _
        by_cases hends : arm.period ≤ 0 ∨ arm.stop ≤ now
        · have hafter : arm.after now = none := by rw [Arm.after, if_neg (not_lt.mpr hdue), if_pos hends]
          rw [hafter, beatTimes_none hkept']
          refine ⟨fun t ht => (List.mem_singleton.mp ht) ▸ hin, fun n hn => ?_⟩
          obtain rfl : 0 = n := Nat.succ.inj hn
          simp only [Nat.cast_zero, add_zero]
          omega
        · have hafter : arm.after now = some (arm.advance now) := by
            rw [Arm.after, if_neg (not_lt.mpr hdue), if_neg hends]
          rw [hafter] at htail ⊢
          obtain ⟨hall, hfit⟩ := ih h.advance (Nat.succ_pos k) hkept' htail
          refine ⟨fun t ht => ?_, fun n hn => ?_⟩
          · rcases List.mem_cons.mp ht with rfl | ht
            · exact hin
            · exact hall t ht
          · cases n with
            | zero =>
              simp only [Nat.cast_zero, add_zero]
              omega
            | succ n =>
              have hlast := hfit n (Nat.succ.inj hn)
              push_cast at hlast ⊢
              rw [show (k : Int) + (n + 1) = k + 1 + n by ring]
              exact hlast

theorem Window.skip {t start duration period now : Int} {steps beats : List Int}
    (h : Window t start duration period steps beats) (hearly : now < t + seconds start) :
    Window t start duration period (now :: steps) beats := by
  have hnot : decide (t + seconds start ≤ now) = false := decide_eq_false (not_le.mpr hearly)
  refine ⟨?_, h.others, fun hsingle => ?_, h.count⟩
  · rw [h.first, List.find?_cons_of_neg]
    simpa using hearly
  · rw [h.single hsingle, List.any_cons, hnot, Bool.false_or]

/-- The window of an arm whose first beat is at `now`. -/
theorem Window.fire {t start duration period now : Int} {steps beats : List Int}
    (hdue : t + seconds start ≤ now) (hothers : ∀ b ∈ beats, b ≤ t + seconds start + seconds duration)
    (hsingle : period ≤ 0 ∨ duration = 0 → beats = [])
    (hcount : ¬ (period ≤ 0 ∨ duration = 0) →
      (beats.length : Int) ≤ seconds duration / milliseconds period) :
    Window t start duration period (now :: steps) (now :: beats) := by
  refine ⟨?_, hothers, fun h => ?_, fun h => ?_⟩
  · rw [List.find?_cons_of_pos (by simpa using hdue)]
    rfl
  · rw [hsingle h, List.any_cons, decide_eq_true hdue, Bool.true_or, if_pos rfl]
    rfl
  · rw [List.length_cons, Nat.cast_succ]
    exact Int.add_le_add_right (hcount h) 1

theorem quotient_nonneg {duration period : Int} (hduration : 0 ≤ duration)
    (hperiodic : ¬ (period ≤ 0 ∨ duration = 0)) : 0 ≤ seconds duration / milliseconds period := by
  unfold seconds milliseconds
  apply Int.ediv_nonneg <;> omega

/-- The arm after its first beat, where the window goes on. -/
theorem running_armed {t start duration period now : Int} (hperiod : 0 < milliseconds period) :
    ((Arm.armed t start duration period).advance now).Running (t + seconds start)
      (t + seconds start + seconds duration) (milliseconds period) 1 := by
  have hfresh : (Arm.armed t start duration period).Running (t + seconds start)
      (t + seconds start + seconds duration) (milliseconds period) 0 :=
    ⟨rfl, rfl, hperiod, rfl, by simp [Arm.armed]⟩
  exact hfresh.advance

/-- **The window of an arm** that is not replaced. -/
theorem window_beatTimes {name : String} {t start duration period : Int} {calls : List Call}
    (hduration : 0 ≤ duration) (hkept : ∀ call ∈ calls, call.triggers name = false)
    (hmeets : Meeting name (some (.armed t start duration period)) calls) :
    Window t start duration period (stepTimes calls)
      (beatTimes name (some (.armed t start duration period)) calls) := by
  induction calls with
  | nil =>
    refine ⟨rfl, fun now hnow => (nomatch hnow), fun _ => rfl, fun hperiodic => ?_⟩
    have hquot := quotient_nonneg hduration hperiodic
    simp only [beatTimes, List.length_nil, Nat.cast_zero]
    omega
  | cons call calls ih =>
    have hkept' : ∀ call ∈ calls, call.triggers name = false :=
      fun call hmem => hkept call (List.mem_cons_of_mem _ hmem)
    have htail := hmeets.tail
    rw [beatTimes]
    cases call with
    | onTrigger source now start' duration' period' =>
      rw [turn_other (hkept _ List.mem_cons_self)] at htail ⊢
      exact ih hkept' htail
    | step now =>
      rcases lt_or_ge now (Arm.armed t start duration period).next with hearly | hdue
      · rw [fires_of_lt hearly]
        change Meeting name (Arm.after _ now) calls at htail
        change Window _ _ _ _ (now :: stepTimes calls) (beatTimes name (Arm.after _ now) calls)
        rw [after_of_lt hearly] at htail ⊢
        exact (ih hkept' htail).skip hearly
      · rw [fires_of_le hdue]
        change Meeting name (Arm.after _ now) calls at htail
        change Window _ _ _ _ (now :: stepTimes calls) (now :: beatTimes name (Arm.after _ now) calls)
        by_cases hends : milliseconds period ≤ 0 ∨ t + seconds start + seconds duration ≤ now
        · have hafter : (Arm.armed t start duration period).after now = none := by
            rw [Arm.after, if_neg (not_lt.mpr hdue)]
            exact if_pos hends
          rw [hafter, beatTimes_none hkept']
          exact .fire hdue (fun b hb => (nomatch hb)) (fun _ => rfl) fun hperiodic =>
            quotient_nonneg hduration hperiodic
        · have hafter : (Arm.armed t start duration period).after now =
              some ((Arm.armed t start duration period).advance now) := by
            rw [Arm.after, if_neg (not_lt.mpr hdue)]
            exact if_neg hends
          obtain ⟨hperiod, hopen⟩ := not_or.mp hends
          rw [hafter] at htail ⊢
          obtain ⟨hothers, hfit⟩ :=
            (running_armed (not_le.mp hperiod)).beats Nat.one_pos hkept' htail
          refine .fire hdue hothers (fun hsingle => ?_) fun hperiodic => ?_
          · change t + seconds start ≤ now at hdue
            unfold milliseconds at hperiod
            rcases hsingle with hzero | rfl
            · omega
            · rw [show seconds 0 = 0 from rfl] at hopen
              omega
          · generalize (beatTimes name _ calls).length = count at hfit ⊢
            cases count with
            | zero => exact_mod_cast quotient_nonneg hduration hperiodic
            | succ n =>
              apply Int.le_ediv_of_mul_le (not_le.mp hperiod)
              have hlast := hfit n rfl
              push_cast at hlast ⊢
              rw [add_comm (n : Int) 1]
              omega

/-! ## The source over a run -/

/-- A triggered source keeps to what its triggers asked for. -/
structure InWindow (name : String) (c : Controller) (calls : List Call) : Prop where
  once : ∀ before now after, calls = before ++ .step now :: after →
    (beatsOf name (before.foldl advance c) [.step now]).length ≤ 1 ∧
      (beatsOf name (before.foldl advance c) [.step now] ≠ [] →
        name ∈ (before.foldl advance c).arms)
  window : ∀ before t start duration period arm after,
    calls = before ++ .onTrigger name t start duration period :: (arm ++ after) →
      (∀ call ∈ arm, call.triggers name = false) →
        Window t start duration period (stepTimes arm)
          ((beatsOf name (onTrigger (before.foldl advance c) name t start duration period) arm).map
            Prod.fst)
  payloads : ∃ first : UInt8, (beatsOf name c calls).map Prod.snd =
    (List.range (beatsOf name c calls).length).map fun i => first + UInt8.ofNat i

section Run

variable {c : Controller} {name : String} {counter : UInt8}

theorem source_foldl (hcounter : c.triggered[name]? = some counter) (calls : List Call) :
    ∃ counter', (calls.foldl advance c).triggered[name]? = some counter' := by
  induction calls generalizing c counter with
  | nil => exact ⟨counter, hcounter⟩
  | cons call calls ih => exact ih (advance_source hcounter call).2

theorem beatsOf_step (hcounter : c.triggered[name]? = some counter) (now : Int) :
    (beatsOf name c [.step now]).length ≤ 1 ∧ (beatsOf name c [.step now] ≠ [] → name ∈ c.arms) := by
  have hnil : beatsOf name (advance c (.step now)) [] = [] := rfl
  rw [beatsOf_cons hcounter, hnil, List.append_nil, List.length_map]
  refine ⟨Option.length_toList_le, fun hbeat => ?_⟩
  rw [Std.TreeMap.mem_iff_isSome_getElem?]
  cases harm : c.arms[name]? with
  | none => exact absurd (by rw [harm]; rfl) hbeat
  | some arm => rfl

theorem arms_onTrigger (t start duration period : Int) :
    (onTrigger c name t start duration period).arms[name]? = some (.armed t start duration period) :=
  (arms_advance (.onTrigger name t start duration period)).trans (if_pos rfl)

theorem times_onTrigger (hcounter : c.triggered[name]? = some counter) (t start duration period : Int)
    (calls : List Call) :
    (beatsOf name (onTrigger c name t start duration period) calls).map Prod.fst =
      beatTimes name (some (.armed t start duration period)) calls := by
  have htriggered : (onTrigger c name t start duration period).triggered[name]? = some counter := hcounter
  rw [times_beatsOf htriggered, arms_onTrigger]

theorem along_iff_meeting {calls : List Call} :
    Along advance (fun c call => call.Meets name c.arms[name]?) c calls ↔
      Meeting name c.arms[name]? calls := by
  induction calls generalizing c with
  | nil => exact ⟨fun _ => along_nil, fun _ => along_nil⟩
  | cons call calls ih =>
    rw [along_cons, ih, arms_advance]
    exact along_cons.symm

/-- **A triggered source keeps to its window**, in every run with no negative duration in which no step finds
the arm of the source due after its window once it has had a beat. -/
theorem inWindow (hcounter : c.triggered[name]? = some counter) {calls : List Call}
    (hmeets : Along advance (fun c call => call.Meets name c.arms[name]?) c calls) :
    InWindow name c calls := by
  refine ⟨?_, ?_, ⟨counter, payloads_beatsOf hcounter calls⟩⟩
  · rintro before now after -
    obtain ⟨counter', hcounter'⟩ := source_foldl hcounter before
    exact beatsOf_step hcounter' now
  · rintro before t start duration period arm after rfl hkept
    have htrigger : Call.Meets name _ (.onTrigger name t start duration period) :=
      hmeets before _ (arm ++ after) rfl
    have harm := hmeets.right.tail.left
    obtain ⟨counter', hcounter'⟩ := source_foldl hcounter before
    have hmeeting := along_iff_meeting.mp harm
    change Meeting name (onTrigger (before.foldl advance c) name t start duration period).arms[name]? arm
      at hmeeting
    rw [arms_onTrigger] at hmeeting
    rw [times_onTrigger hcounter']
    exact window_beatTimes (htrigger rfl) hkept hmeeting

end Run

/-! ## Two runs -/

/-- A controller with one triggered source. -/
def arrayOnly : Controller := addTriggeredSource {} "TestEventUINT8Array"

theorem triggered_arrayOnly : arrayOnly.triggered["TestEventUINT8Array"]? = some 0 := by
  change ((∅ : Std.TreeMap String UInt8).insertIfNew _ 0)[_]? = _
  rw [getElem?_insertIfNew, if_pos rfl]
  rfl

/-- A trigger for one second with the period given, and steps at the times given (all in milliseconds). -/
def oneSecond (period : Int) (steps : List Int) : List Call :=
  .onTrigger "TestEventUINT8Array" 0 0 1 period :: steps.map fun now => .step (milliseconds now)

theorem arms_arrayOnly : arrayOnly.arms["TestEventUINT8Array"]? = none := Std.TreeMap.getElem?_emptyc

/-- A step on every beat, and one on the end of the window. -/
theorem inWindow_divided :
    InWindow "TestEventUINT8Array" arrayOnly (oneSecond 500 [0, 500, 1000, 1500]) ∧
      beatTimes "TestEventUINT8Array" none (oneSecond 500 [0, 500, 1000, 1500]) =
        [0, milliseconds 500, milliseconds 1000] := by
  refine ⟨inWindow triggered_arrayOnly (along_iff_meeting.mpr ?_), by decide +kernel⟩
  rw [arms_arrayOnly]
  decide +kernel

/-- With a period that does not divide the duration, a fifth beat leaves after the second is over. -/
theorem not_inWindow_stepped_over :
    ((oneSecond 300 [0, 300, 600, 900, 1200]).map Call.time).IsChain (· ≤ ·) ∧
      ¬ InWindow "TestEventUINT8Array" arrayOnly (oneSecond 300 [0, 300, 600, 900, 1200]) := by
  refine ⟨by decide +kernel, fun h => ?_⟩
  have hwindow := h.window [] 0 0 1 300 _ [] (by rw [List.append_nil]; rfl) (by decide +kernel)
  rw [List.foldl_nil, times_onTrigger triggered_arrayOnly] at hwindow
  have hlate : milliseconds 1200 ∈ (beatTimes "TestEventUINT8Array" (some (.armed 0 0 1 300))
      ([0, 300, 600, 900, 1200].map fun now => .step (milliseconds now))).tail := by decide +kernel
  exact absurd (hwindow.others _ hlate) (by decide +kernel)

end Tc8Harness.DutService.Emission
