import Mathlib
import Std.Data.TreeMap.Lemmas
import Tc8Harness.Lib.TreeTable

/-!
# Response correlation

`dut/dut_service/response_correlation.h`: the sessions of the requests that wait for a response, kept per
(service, instance, method), each with the request's interface version. A response is delivered when its
session waits, and the first response takes the session out, delivered or not. Every method holds the mutex
from end to end, so a run is a sequence of calls.

What the nested maps hold of one key and session is `held`; `note` says what a call does to it, and that is
all a call does (`held_step`).
-/

namespace Tc8Harness.DutService

open TreeTable

namespace ResponseCorrelation

/-- (service, instance, method), compared as a `std::tuple` is. -/
abbrev Key := UInt16 × UInt16 × UInt16

instance : Ord Key := @lexOrd _ _ _ lexOrd

end ResponseCorrelation

open ResponseCorrelation (Key)

structure ResponseCorrelation where
  strictInterfaceVersion : Bool
  pending : Std.TreeMap Key (Std.TreeMap UInt16 UInt8) := ∅

namespace ResponseCorrelation

/-- `pending_[key].emplace(session, major)`: a session that is there keeps its major. -/
def insertLocked (r : ResponseCorrelation) (key : Key) (session : UInt16) (major : UInt8) :
    ResponseCorrelation :=
  { r with pending := r.pending.insert key ((r.pending.getD key ∅).insertIfNew session major) }

/-- `send()` has been called and returned `session`. -/
def recordSent (r : ResponseCorrelation) (key : Key) (major : UInt8) (session : UInt16) :
    ResponseCorrelation :=
  r.insertLocked key session major

def recordRequest (r : ResponseCorrelation) (key : Key) (session : UInt16) (major : UInt8) :
    ResponseCorrelation :=
  r.insertLocked key session major

def acceptResponse (r : ResponseCorrelation) (key : Key) (session : UInt16) (responseMajor : UInt8) :
    Bool × ResponseCorrelation :=
  match r.pending[key]? with
  | none => (false, r)
  | some sessions =>
    match sessions[session]? with
    | none => (false, r)
    | some major =>
      let majorOk := !r.strictInterfaceVersion || major == responseMajor
      let sessions := sessions.erase session
      if sessions.isEmpty then (majorOk, { r with pending := r.pending.erase key })
      else (majorOk, { r with pending := r.pending.insert key sessions })

/-! ## Runs -/

inductive Call where
  | recordSent (key : Key) (major : UInt8) (session : UInt16)
  | recordRequest (key : Key) (session : UInt16) (major : UInt8)
  | acceptResponse (key : Key) (session : UInt16) (responseMajor : UInt8)
  deriving DecidableEq

def step (r : ResponseCorrelation) : Call → ResponseCorrelation
  | .recordSent key major session => r.recordSent key major session
  | .recordRequest key session major => r.recordRequest key session major
  | .acceptResponse key session major => (r.acceptResponse key session major).2

def after (strict : Bool) (history : List Call) : ResponseCorrelation :=
  history.foldl step { strictInterfaceVersion := strict }

/-- The request a call is about. -/
def Call.subject : Call → Key × UInt16
  | .recordSent key _ session => (key, session)
  | .recordRequest key session _ => (key, session)
  | .acceptResponse key session _ => (key, session)

/-- The major a call records. -/
def Call.recorded : Call → Option UInt8
  | .recordSent _ major _ => some major
  | .recordRequest _ _ major => some major
  | .acceptResponse _ _ _ => none

/-- The request was recorded with `major`, and no response for it was looked at since. -/
def Outstanding (history : List Call) (key : Key) (session : UInt16) (major : UInt8) : Prop :=
  ∃ before c later, history = before ++ c :: later ∧ c.subject = (key, session) ∧
    c.recorded = some major ∧ ∀ d ∈ later, d.subject = (key, session) → d.recorded ≠ none

/-- No session is recorded again for a key while it is outstanding. -/
def Fresh (history : List Call) : Prop :=
  ∀ before c later, history = before ++ c :: later → c.recorded ≠ none →
    ∀ major, ¬ Outstanding before c.subject.1 c.subject.2 major

/-- How often a response for the request is delivered along a run. -/
def delivered (key : Key) (session : UInt16) : ResponseCorrelation → List Call → Nat
  | _, [] => 0
  | r, c :: calls =>
    (match c with
      | .acceptResponse k s major =>
        if (k, s) = (key, session) ∧ (r.acceptResponse k s major).1 = true then 1 else 0
      | _ => 0) + delivered key session (r.step c) calls

/-- How often the request is recorded. -/
def recordings (key : Key) (session : UInt16) (calls : List Call) : Nat :=
  calls.countP fun c => c.subject = (key, session) && c.recorded.isSome

/-! ## What is held of one request -/

variable (r : ResponseCorrelation) (key : Key) (session : UInt16)

/-- The major the maps hold for a session of a key. -/
def held : Option UInt8 := r.pending[key]?.bind fun sessions => sessions[session]?

/-- What a call does to it. -/
def note (kept : Option UInt8) (c : Call) : Option UInt8 :=
  if c.subject = (key, session) then c.recorded.map fun major => kept.getD major else kept

theorem held_insertLocked (key' : Key) (session' : UInt16) (major : UInt8) :
    (r.insertLocked key' session' major).held key session =
      if (key', session') = (key, session) then some ((r.held key session).getD major)
      else r.held key session := by
  have hsessions : (r.pending.getD key ∅)[session]? = r.held key session := by
    rw [Std.TreeMap.getD_eq_getD_getElem?, held]
    cases r.pending[key]? <;> rfl
  unfold held insertLocked
  dsimp only
  rw [getElem?_insert]
  by_cases hkey : key = key'
  · subst hkey
    rw [if_pos rfl, Option.bind_some, getElem?_insertIfNew, hsessions]
    simp only [Prod.mk.injEq, true_and, eq_comm (a := session)]
    rfl
  · rw [if_neg hkey, if_neg (fun h => hkey (Prod.mk.inj h).1.symm)]

theorem acceptResponse_fst (major : UInt8) :
    (r.acceptResponse key session major).1 =
      match r.held key session with
      | none => false
      | some recorded => !r.strictInterfaceVersion || recorded == major := by
  unfold acceptResponse held
  cases r.pending[key]? with
  | none => rfl
  | some sessions =>
    dsimp only [Option.bind_some]
    cases sessions[session]? with
    | none => rfl
    | some recorded =>
      dsimp only
      split <;> rfl

theorem acceptResponse_of_held_none {r : ResponseCorrelation} {key : Key} {session : UInt16} (major : UInt8)
    (h : r.held key session = none) : (r.acceptResponse key session major).2 = r := by
  unfold held at h
  unfold acceptResponse
  cases hsessions : r.pending[key]? with
  | none => rfl
  | some sessions =>
    rw [hsessions, Option.bind_some] at h
    dsimp only
    rw [h]

/-- Taking a session out of its key's map is all that is left of it, also where the map goes with it. -/
theorem held_acceptResponse_of_held {r : ResponseCorrelation} {key' : Key} {session' : UInt16}
    {recorded : UInt8} (major : UInt8) (h : r.held key' session' = some recorded) :
    (r.acceptResponse key' session' major).2.held key session =
      if (key', session') = (key, session) then none else r.held key session := by
  obtain ⟨sessions, hsessions, hrecorded⟩ := Option.bind_eq_some_iff.1 h
  have hpending : ((r.acceptResponse key' session' major).2.pending[key]?.bind fun m => m[session]?) =
      if key = key' then (sessions.erase session')[session]? else r.held key session := by
    unfold acceptResponse
    rw [hsessions]
    dsimp only
    rw [hrecorded]
    dsimp only
    split
    · next hempty =>
      rw [getElem?_erase, Std.TreeMap.getElem?_of_isEmpty hempty]
      split <;> rfl
    · rw [getElem?_insert]
      split <;> rfl
  rw [held, hpending, getElem?_erase]
  by_cases hkey : key = key'
  · subst hkey
    have hheld : r.held key session = sessions[session]? := by
      rw [held, hsessions, Option.bind_some]
    rw [if_pos rfl, hheld]
    simp only [Prod.mk.injEq, true_and, eq_comm (a := session)]
  · rw [if_neg hkey, if_neg (fun hsame => hkey (Prod.mk.inj hsame).1.symm)]

theorem held_acceptResponse (key' : Key) (session' : UInt16) (major : UInt8) :
    (r.acceptResponse key' session' major).2.held key session =
      if (key', session') = (key, session) then none else r.held key session := by
  cases h : r.held key' session' with
  | some recorded => exact held_acceptResponse_of_held key session major h
  | none =>
    rw [acceptResponse_of_held_none major h]
    split
    · next hsame =>
      obtain ⟨rfl, rfl⟩ := Prod.mk.inj hsame
      exact h
    · rfl

/-- **A call touches one request.** -/
theorem held_step (c : Call) : (r.step c).held key session = note key session (r.held key session) c := by
  cases c with
  | recordSent key' major session' => exact r.held_insertLocked key session key' session' major
  | recordRequest key' session' major => exact r.held_insertLocked key session key' session' major
  | acceptResponse key' session' major => exact r.held_acceptResponse key session key' session' major

theorem held_foldl (calls : List Call) :
    (calls.foldl step r).held key session = calls.foldl (note key session) (r.held key session) := by
  induction calls generalizing r with
  | nil => rfl
  | cons c calls ih => rw [List.foldl_cons, List.foldl_cons, ih, held_step]

theorem held_after (strict : Bool) (history : List Call) :
    (after strict history).held key session = history.foldl (note key session) none := by
  rw [after, held_foldl]
  rfl

theorem strict_step (c : Call) : (r.step c).strictInterfaceVersion = r.strictInterfaceVersion := by
  cases c with
  | recordSent => rfl
  | recordRequest => rfl
  | acceptResponse key' session' major =>
    cases h : r.held key' session' with
    | none =>
      change (r.acceptResponse key' session' major).2.strictInterfaceVersion = _
      rw [acceptResponse_of_held_none major h]
    | some recorded =>
      obtain ⟨sessions, hsessions, hrecorded⟩ := Option.bind_eq_some_iff.1 h
      unfold step acceptResponse
      dsimp only
      rw [hsessions]
      dsimp only
      rw [hrecorded]
      dsimp only
      split <;> rfl

theorem strict_after (strict : Bool) (history : List Call) :
    (after strict history).strictInterfaceVersion = strict := by
  have hrun : ∀ r : ResponseCorrelation,
      (history.foldl step r).strictInterfaceVersion = r.strictInterfaceVersion := by
    induction history with
    | nil => exact fun _ => rfl
    | cons c history ih => exact fun r => (ih _).trans (r.strict_step c)
  exact hrun _

/-! ## The history of one request -/

variable {key : Key} {session : UInt16} {history : List Call}

theorem outstanding_concat {c : Call} {major : UInt8} :
    Outstanding (history ++ [c]) key session major ↔
      (c.subject = (key, session) ∧ c.recorded = some major) ∨
      (Outstanding history key session major ∧ (c.subject = (key, session) → c.recorded ≠ none)) := by
  constructor
  · rintro ⟨before, d, later, hsplit, hsubject, hrecorded, hlater⟩
    rcases List.eq_nil_or_concat later with rfl | ⟨later, e, rfl⟩
    · obtain ⟨rfl, hc⟩ := List.append_inj' hsplit rfl
      obtain rfl : c = d := List.head_eq_of_cons_eq hc
      exact .inl ⟨hsubject, hrecorded⟩
    · rw [List.concat_eq_append, ← List.cons_append, ← List.append_assoc] at hsplit
      obtain ⟨rfl, hc⟩ := List.append_inj' hsplit rfl
      obtain rfl : c = e := List.head_eq_of_cons_eq hc
      rw [List.concat_eq_append] at hlater
      refine .inr ⟨⟨before, d, later, rfl, hsubject, hrecorded, fun x hx => ?_⟩, ?_⟩
      · exact hlater x (List.mem_append_left _ hx)
      · exact hlater c (List.mem_append_right _ List.mem_cons_self)
  · rintro (⟨hsubject, hrecorded⟩ | ⟨⟨before, d, later, rfl, hsubject, hrecorded, hlater⟩, hc⟩)
    · exact ⟨history, c, [], rfl, hsubject, hrecorded, nofun⟩
    · refine ⟨before, d, later ++ [c], by simp, hsubject, hrecorded, fun x hx => ?_⟩
      rcases List.mem_append.1 hx with hx | hx
      · exact hlater x hx
      · rw [List.mem_singleton.1 hx]
        exact hc

theorem Fresh.of_concat {c : Call} (h : Fresh (history ++ [c])) :
    Fresh history ∧ (c.recorded ≠ none → ∀ major, ¬ Outstanding history c.subject.1 c.subject.2 major) := by
  refine ⟨fun before d later hsplit => ?_, h history c [] rfl⟩
  exact h before d (later ++ [c]) (by rw [hsplit, List.append_assoc, List.cons_append])

/-- What is held of a request that is not recorded twice is what is outstanding of it. -/
theorem held_eq_some_iff (hfresh : Fresh history) (major : UInt8) :
    history.foldl (note key session) none = some major ↔ Outstanding history key session major := by
  induction history using List.reverseRecOn generalizing major with
  | nil =>
    refine iff_of_false nofun ?_
    rintro ⟨before, c, later, hsplit, -⟩
    exact absurd hsplit.symm (List.append_ne_nil_of_right_ne_nil before (List.cons_ne_nil c later))
  | append_singleton history c ih =>
    obtain ⟨hfresh, hnew⟩ := hfresh.of_concat
    rw [outstanding_concat, List.foldl_append, List.foldl_cons, List.foldl_nil, note, ← ih hfresh]
    by_cases hsubject : c.subject = (key, session)
    · cases hrecorded : c.recorded with
      | none => simp [hsubject]
      | some recorded =>
        -- it is not outstanding, so nothing is kept and the recorded major is taken
        have hnone : history.foldl (note key session) none = none := by
          by_contra hkept
          obtain ⟨kept, hkept⟩ := Option.ne_none_iff_exists'.1 hkept
          refine hnew (by rw [hrecorded]; nofun) kept ?_
          rw [hsubject]
          exact (ih hfresh kept).1 hkept
        simp [hsubject, hnone]
    · simp [hsubject]

/-- A call keeps a history fresh when it records nothing that is held. -/
theorem Fresh.concat {c : Call} (h : Fresh history)
    (hc : c.recorded = none ∨ history.foldl (note c.subject.1 c.subject.2) none = none) :
    Fresh (history ++ [c]) := by
  intro before d later hsplit hrecorded major houtstanding
  rcases List.eq_nil_or_concat later with rfl | ⟨later, e, rfl⟩
  · obtain ⟨rfl, hd⟩ := List.append_inj' hsplit rfl
    obtain rfl : c = d := List.head_eq_of_cons_eq hd
    rcases hc with hc | hc
    · exact hrecorded hc
    · rw [← held_eq_some_iff h, hc] at houtstanding
      cases houtstanding
  · rw [List.concat_eq_append, ← List.cons_append, ← List.append_assoc] at hsplit
    obtain ⟨rfl, -⟩ := List.append_inj' hsplit rfl
    exact h before d later rfl hrecorded major houtstanding

/-! ## Delivered responses -/

/-- Only what is held is delivered. -/
theorem held_of_accepted {r : ResponseCorrelation} {major : UInt8}
    (h : (r.acceptResponse key session major).1 = true) : (r.held key session).toList.length = 1 := by
  rw [acceptResponse_fst] at h
  cases hheld : r.held key session with
  | none => rw [hheld] at h; cases h
  | some recorded => rfl

theorem recordings_cons (c : Call) (calls : List Call) : recordings key session (c :: calls) =
    recordings key session calls + if c.subject = (key, session) ∧ c.recorded.isSome then 1 else 0 := by
  rw [recordings, List.countP_cons, recordings]
  simp only [Bool.and_eq_true, decide_eq_true_eq]

/-- A recording adds one to what is recorded and at most one to what is held. -/
theorem length_note_le {kept : Option UInt8} {c : Call} :
    (note key session kept c).toList.length ≤
      kept.toList.length + if c.subject = (key, session) ∧ c.recorded.isSome then 1 else 0 := by
  unfold note
  by_cases hsubject : c.subject = (key, session)
  · rw [if_pos hsubject]
    cases c.recorded with
    | none => exact Nat.zero_le _
    | some major => simp [hsubject]
  · rw [if_neg hsubject, if_neg (fun h => hsubject h.1)]
    exact Nat.le_refl _

/-- What is delivered was recorded, or held from the start. -/
theorem delivered_le (r : ResponseCorrelation) (calls : List Call) :
    delivered key session r calls ≤ recordings key session calls + (r.held key session).toList.length := by
  induction calls generalizing r with
  | nil => exact Nat.zero_le _
  | cons c calls ih =>
    have hrest := ih (r.step c)
    rw [held_step] at hrest
    have hnote := @length_note_le key session (r.held key session) c
    rw [recordings_cons]
    cases c with
    | recordSent key' major session' =>
      rw [delivered]
      · omega
      · nofun
    | recordRequest key' session' major =>
      rw [delivered]
      · omega
      · nofun
    | acceptResponse key' session' major =>
      rw [delivered]
      by_cases hdelivered :
          (key', session') = (key, session) ∧ (r.acceptResponse key' session' major).1 = true
      · -- the one that was held is delivered, and nothing is held of it any more
        obtain ⟨hsame, haccepted⟩ := hdelivered
        have hgone : note key session (r.held key session) (.acceptResponse key' session' major) = none :=
          if_pos hsame
        obtain ⟨rfl, rfl⟩ := Prod.mk.inj hsame
        have hheld := held_of_accepted haccepted
        rw [hgone] at hrest
        rw [if_pos ⟨rfl, haccepted⟩]
        simp only [Option.toList_none, List.length_nil] at hrest
        omega
      · rw [if_neg hdelivered]
        omega

/-- Calls about other requests can be left out. -/
theorem foldl_note_filter (kept : Option UInt8) (calls : List Call) :
    (calls.filter fun c => c.subject = (key, session)).foldl (note key session) kept =
      calls.foldl (note key session) kept := by
  induction calls generalizing kept with
  | nil => rfl
  | cons c calls ih =>
    rw [List.filter_cons, List.foldl_cons]
    by_cases hsubject : c.subject = (key, session)
    · rw [if_pos (by simpa using hsubject), List.foldl_cons, ih]
    · rw [if_neg (by simpa using hsubject), ih, note, if_neg hsubject]

/-- What is asked of a history: a response is delivered when its request waits for it, and in strict mode
with the request's major; no request gets two; and no call about another key or session counts. -/
structure Correlates (strict : Bool) (history : List Call) : Prop where
  accept_iff : ∀ key session major, ((after strict history).acceptResponse key session major).1 = true ↔
    ∃ recorded, Outstanding history key session recorded ∧ (strict = true → recorded = major)
  once : ∀ key session, delivered key session { strictInterfaceVersion := strict } history ≤
    recordings key session history
  apart : ∀ key session major, ((after strict history).acceptResponse key session major).1 =
    ((after strict (history.filter fun c => c.subject = (key, session))).acceptResponse
      key session major).1

/-- **Responses are correlated** in every run that records no session again while it is outstanding. -/
theorem correlates (strict : Bool) (hfresh : Fresh history) : Correlates strict history := by
  refine ⟨fun key session major => ?_, fun key session => ?_, fun key session major => ?_⟩
  · rw [acceptResponse_fst, strict_after, held_after]
    cases hheld : history.foldl (note key session) none with
    | none =>
      refine iff_of_false nofun ?_
      rintro ⟨recorded, houtstanding, -⟩
      rw [(held_eq_some_iff hfresh recorded).2 houtstanding] at hheld
      cases hheld
    | some recorded =>
      have houtstanding := (held_eq_some_iff hfresh recorded).1 hheld
      dsimp only
      constructor
      · intro h
        refine ⟨recorded, houtstanding, fun hstrict => ?_⟩
        rw [hstrict] at h
        exact beq_iff_eq.1 h
      · rintro ⟨recorded', houtstanding', hmajor⟩
        have hsame := (held_eq_some_iff hfresh recorded').2 houtstanding'
        rw [hheld] at hsame
        obtain rfl := Option.some.inj hsame
        cases strict with
        | false => rfl
        | true => exact beq_iff_eq.2 (hmajor rfl)
  · exact @delivered_le key session _ history
  · rw [acceptResponse_fst, acceptResponse_fst, strict_after, strict_after, held_after, held_after,
      foldl_note_filter]

/-- A session that is used again once its response has come, after one with another session id. -/
theorem correlates_reused : Correlates true
    [.recordRequest (0x1001, 1, 8) 7 1, .acceptResponse (0x1001, 1, 8) 9 1,
      .acceptResponse (0x1001, 1, 8) 7 1, .recordSent (0x1001, 1, 8) 2 7] := by
  have hnil : Fresh [] := by
    intro before c later hsplit
    exact absurd hsplit.symm (List.append_ne_nil_of_right_ne_nil before (List.cons_ne_nil c later))
  refine correlates true ((((hnil.concat (.inr rfl)).concat (.inl rfl)).concat (.inl rfl)).concat (.inr ?_))
  decide

end ResponseCorrelation

end Tc8Harness.DutService
