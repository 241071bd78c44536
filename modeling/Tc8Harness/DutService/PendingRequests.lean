import Mathlib
import Std.Data.TreeMap.Lemmas
import Tc8Harness.Lib.TreeTable

/-!
# Requests parked for a service

`dut/dut_service/pending_requests.h`: a request is sent when its service is available, and parked until
`onAvailable` otherwise. The sender is modelled by the list of what it was called with; the availability
query and the callback are two clocks, so a run has both, step by step.

A parked request is sent once and keeps its place among the parked ones; a request that finds its service
available before the callback has come goes ahead of those (`served`).
-/

namespace Tc8Harness.DutService

open TreeTable

namespace PendingRequests

/-- (service, instance), compared as a `std::pair` is. -/
abbrev Key := UInt16 × UInt16

instance : Ord Key := lexOrd

end PendingRequests

open PendingRequests (Key)

structure PendingRequests (ρ : Type) where
  pending : Std.TreeMap Key (List ρ) := ∅
  /-- What `send_` was called with, and the key of the call that called it. -/
  sent : List (Key × ρ) := []

namespace PendingRequests

variable {ρ : Type}

def submit (p : PendingRequests ρ) (available : Bool) (key : Key) (request : ρ) : PendingRequests ρ :=
  if available then { p with sent := p.sent ++ [(key, request)] }
  else { p with pending := p.pending.insert key (p.pending.getD key [] ++ [request]) }

def onAvailable (p : PendingRequests ρ) (key : Key) : PendingRequests ρ :=
  match p.pending[key]? with
  | none => p
  | some queue =>
    { p with sent := p.sent ++ queue.map (key, ·), pending := p.pending.erase key }

def sentOf (p : PendingRequests ρ) (key : Key) : List ρ :=
  (p.sent.filter fun s => s.1 = key).map Prod.snd

def parkedOf (p : PendingRequests ρ) (key : Key) : List ρ := p.pending.getD key []

/-! ## What a call does to the requests of a key -/

section Step

variable {p : PendingRequests ρ} {key key' : Key} {request : ρ}

theorem requests_append (sent : List (Key × ρ)) (queue : List ρ) :
    ((sent ++ queue.map (key', ·)).filter fun s => s.1 = key).map Prod.snd =
      (sent.filter fun s => s.1 = key).map Prod.snd ++ if key = key' then queue else [] := by
  rw [List.filter_append, List.map_append, List.filter_map, List.map_map]
  congr 1
  by_cases h : key = key'
  · subst h
    simp [Function.comp_def]
  · simp [Function.comp_def, h, Ne.symm h]

theorem sentOf_submit_available :
    (p.submit true key' request).sentOf key = p.sentOf key ++ if key = key' then [request] else [] :=
  requests_append p.sent [request]

theorem parkedOf_submit_available : (p.submit true key' request).parkedOf key = p.parkedOf key := rfl

theorem sentOf_submit_parked : (p.submit false key' request).sentOf key = p.sentOf key := rfl

theorem parkedOf_submit_parked :
    (p.submit false key' request).parkedOf key =
      p.parkedOf key ++ if key = key' then [request] else [] := by
  change (p.pending.insert key' (p.pending.getD key' [] ++ [request])).getD key [] = _
  rw [parkedOf, Std.TreeMap.getD_eq_getD_getElem?, getElem?_insert]
  by_cases h : key = key'
  · subst h
    rw [if_pos rfl, if_pos rfl, Option.getD_some]
  · rw [if_neg h, if_neg h, List.append_nil, ← Std.TreeMap.getD_eq_getD_getElem?]

theorem sentOf_onAvailable :
    (p.onAvailable key').sentOf key = p.sentOf key ++ if key = key' then p.parkedOf key else [] := by
  unfold onAvailable
  cases hqueue : p.pending[key']? with
  | none =>
    have hempty : p.parkedOf key' = [] := by
      rw [parkedOf, Std.TreeMap.getD_eq_getD_getElem?, hqueue, Option.getD_none]
    dsimp only
    split
    · next h => rw [h, hempty, List.append_nil]
    · exact (List.append_nil _).symm
  | some queue =>
    have hparked : p.parkedOf key' = queue := by
      rw [parkedOf, Std.TreeMap.getD_eq_getD_getElem?, hqueue, Option.getD_some]
    refine (requests_append p.sent queue).trans ?_
    by_cases h : key = key'
    · subst h
      rw [hparked]
      rfl
    · rw [if_neg h, if_neg h]
      rfl

theorem parkedOf_onAvailable :
    (p.onAvailable key').parkedOf key = if key = key' then [] else p.parkedOf key := by
  unfold onAvailable parkedOf
  cases hqueue : p.pending[key']? with
  | none =>
    dsimp only
    split
    · next h => rw [h, Std.TreeMap.getD_eq_getD_getElem?, hqueue, Option.getD_none]
    · rfl
  | some queue =>
    dsimp only
    rw [Std.TreeMap.getD_eq_getD_getElem?, getElem?_erase]
    split
    · rfl
    · rw [← Std.TreeMap.getD_eq_getD_getElem?]

end Step

/-! ## Runs -/

inductive Event (ρ : Type) where
  | submit (key : Key) (request : ρ)
  | onAvailable (key : Key)
  /-- The availability of some service changes. -/
  | quiet

def Event.key? : Event ρ → Option Key
  | .submit key _ => some key
  | .onAvailable key => some key
  | .quiet => none

/-- The calls, step by step, and what the availability query would answer at each step. -/
structure Run (ρ : Type) where
  event : Nat → Event ρ
  available : Nat → Key → Bool

namespace Run

variable (run : Run ρ)

/-- The calls so far. A request goes with the step it was submitted at, so that two equal ones are told
apart. -/
def state : Nat → PendingRequests (Nat × ρ)
  | 0 => {}
  | n + 1 =>
    match run.event n with
    | .submit key request => (state n).submit (run.available n key) key (n, request)
    | .onAvailable key => (state n).onAvailable key
    | .quiet => state n

/-- A service that stays available is reported. -/
def Reported : Prop :=
  ∀ key n, (∀ m ≥ n, run.available m key = true) → ∃ m ≥ n, run.event m = .onAvailable key

/-- The requests of a key are sent in the order they were submitted in. -/
def InOrder : Prop :=
  ∀ key n, ((run.state n).sentOf key).Pairwise fun r s => r.1 < s.1

/-- What the component does: it sends a request of a key once, and once the service stays available it
sends every one; a request is sent after those submitted before it, but for the ones that are parked when
it finds its service available; and no call touches the requests of another key. -/
structure Served : Prop where
  once : ∀ key n, ((run.state n).sentOf key).Nodup ∧
    ∀ r ∈ (run.state n).sentOf key, run.event r.1 = .submit key r.2
  all : ∀ key i request, run.event i = .submit key request →
    (∃ n, ∀ m ≥ n, run.available m key = true) → ∃ n, (i, request) ∈ (run.state n).sentOf key
  order : ∀ key n, ∀ r ∈ (run.state n).sentOf key, ∀ i request, i < r.1 →
    run.event i = .submit key request →
    (run.available r.1 key = true → (i, request) ∉ (run.state r.1).parkedOf key) →
    [(i, request), r].Sublist ((run.state n).sentOf key)
  apart : ∀ key n, (run.event n).key? ≠ some key →
    (run.state (n + 1)).sentOf key = (run.state n).sentOf key ∧
    (run.state (n + 1)).parkedOf key = (run.state n).parkedOf key

/-! ## The requests of one key along a run -/

/-- Sent and parked, in the order they are or will be sent in. -/
def line (key : Key) (n : Nat) : List (Nat × ρ) := (run.state n).sentOf key ++ (run.state n).parkedOf key

/-- The requests of a key that were submitted so far, each in its place. -/
structure Lined (key : Key) (n : Nat) : Prop where
  nodup : (run.line key n).Nodup
  submitted : ∀ r ∈ run.line key n, r.1 < n ∧ run.event r.1 = .submit key r.2
  complete : ∀ i request, i < n → run.event i = .submit key request → (i, request) ∈ run.line key n
  ordered : ∀ r ∈ run.line key n, ∀ i request, i < r.1 → run.event i = .submit key request →
    (run.available r.1 key = true → (i, request) ∉ (run.state r.1).parkedOf key) →
    [(i, request), r].Sublist (run.line key n)

variable {run} {key : Key} {n : Nat}

/-- A step that submits nothing for the key. -/
theorem Lined.keep (h : run.Lined key n) (hline : run.line key (n + 1) = run.line key n)
    (hevent : ∀ request, run.event n ≠ .submit key request) : run.Lined key (n + 1) := by
  constructor
  · rw [hline]
    exact h.nodup
  · rw [hline]
    exact fun r hr => ⟨Nat.lt_succ_of_lt (h.submitted r hr).1, (h.submitted r hr).2⟩
  · intro i request hi hsubmit
    rw [hline]
    refine h.complete i request (Nat.lt_of_le_of_ne (Nat.le_of_lt_succ hi) fun heq => ?_) hsubmit
    exact hevent request (heq ▸ hsubmit)
  · rw [hline]
    exact h.ordered

/-- A request joins the line, behind all of it or, where it is sent at once, ahead of what is parked. -/
theorem Lined.join (h : run.Lined key n) {request : ρ} {front back : List (Nat × ρ)}
    (hevent : run.event n = .submit key request) (hold : run.line key n = front ++ back)
    (hnew : run.line key (n + 1) = front ++ (n, request) :: back)
    (hback : ∀ r ∈ back, run.available n key = true ∧ r ∈ (run.state n).parkedOf key) :
    run.Lined key (n + 1) := by
  have hmem : ∀ r, r ∈ run.line key (n + 1) ↔ r = (n, request) ∨ r ∈ run.line key n := by
    intro r
    rw [hnew, hold, List.mem_append, List.mem_cons, List.mem_append]
    exact or_left_comm
  have hfresh : (n, request) ∉ run.line key n := fun hr => absurd (h.submitted _ hr).1 (Nat.lt_irrefl n)
  constructor
  · rw [hnew, List.nodup_middle, ← hold]
    exact List.nodup_cons.2 ⟨hfresh, h.nodup⟩
  · intro r hr
    rcases (hmem r).1 hr with rfl | hr
    · exact ⟨Nat.lt_succ_self n, hevent⟩
    · exact ⟨Nat.lt_succ_of_lt (h.submitted r hr).1, (h.submitted r hr).2⟩
  · intro i request' hi hsubmit
    rcases Nat.lt_or_eq_of_le (Nat.le_of_lt_succ hi) with hlt | rfl
    · exact (hmem _).2 (.inr (h.complete i request' hlt hsubmit))
    · rw [hevent] at hsubmit
      injection hsubmit with _ hrequest
      exact (hmem _).2 (.inl (by rw [hrequest]))
  · intro r hr i request' hi hsubmit hparked
    rcases (hmem r).1 hr with rfl | hr
    · -- those in front of it were submitted before it; the ones behind it are parked
      have hin := h.complete i request' hi hsubmit
      rw [hold] at hin
      have hfront : (i, request') ∈ front := by
        rcases List.mem_append.1 hin with hin | hin
        · exact hin
        · exact absurd (hback _ hin).2 (hparked (hback _ hin).1)
      rw [hnew]
      exact (List.singleton_sublist.2 hfront).append
        (List.singleton_sublist.2 (List.mem_cons_self (a := (n, request)) (l := back)))
    · refine (h.ordered r hr i request' hi hsubmit hparked).trans ?_
      rw [hnew, hold]
      exact (List.Sublist.refl front).append (List.sublist_cons_self _ back)

theorem lined (key : Key) (n : Nat) : run.Lined key n := by
  induction n with
  | zero => exact ⟨List.nodup_nil, nofun, fun i request hi => absurd hi (Nat.not_lt_zero i), nofun⟩
  | succ n ih =>
    cases hevent : run.event n with
    | quiet =>
      refine ih.keep ?_ fun request h => by rw [hevent] at h; cases h
      rw [line, state, hevent]
      rfl
    | onAvailable key' =>
      refine ih.keep ?_ fun request h => by rw [hevent] at h; cases h
      rw [line, state, hevent]
      dsimp only
      rw [sentOf_onAvailable, parkedOf_onAvailable, line]
      by_cases hkey : key = key'
      · rw [if_pos hkey, if_pos hkey, List.append_nil]
      · rw [if_neg hkey, if_neg hkey, List.append_nil]
    | submit key' request =>
      have hstate : run.state (n + 1) =
          (run.state n).submit (run.available n key') key' (n, request) := by
        rw [state, hevent]
      by_cases hkey : key = key'
      · subst hkey
        cases havailable : run.available n key with
        | true =>
          refine ih.join hevent rfl ?_ fun r hr => ⟨havailable, hr⟩
          rw [line, hstate, havailable, sentOf_submit_available, parkedOf_submit_available, if_pos rfl,
            List.append_assoc]
          rfl
        | false =>
          refine @Lined.join _ _ _ _ ih _ _ [] hevent (List.append_nil _).symm ?_ nofun
          rw [line, hstate, havailable, sentOf_submit_parked, parkedOf_submit_parked, if_pos rfl,
            ← List.append_assoc]
          rfl
      · refine ih.keep ?_ fun request' h => ?_
        · rw [line, hstate]
          cases run.available n key' with
          | true =>
            rw [sentOf_submit_available, parkedOf_submit_available, if_neg hkey, List.append_nil]
            rfl
          | false =>
            rw [sentOf_submit_parked, parkedOf_submit_parked, if_neg hkey, List.append_nil]
            rfl
        · rw [hevent] at h
          injection h with hsame
          exact hkey hsame.symm

/-- Reporting a service sends what was submitted for it. -/
theorem sent_of_reported {i m : Nat} {request : ρ} (hsubmit : run.event i = .submit key request)
    (hlt : i < m) (hreport : run.event m = .onAvailable key) :
    (i, request) ∈ (run.state (m + 1)).sentOf key := by
  have hin := (lined key m).complete i request hlt hsubmit
  rw [state, hreport]
  dsimp only
  rw [sentOf_onAvailable, if_pos rfl]
  exact hin

/-- What is in line before a request that is sent is sent. -/
theorem sublist_sent {sent parked : List (Nat × ρ)} {r s : Nat × ρ} (hnodup : (sent ++ parked).Nodup)
    (hs : s ∈ sent) (h : [r, s].Sublist (sent ++ parked)) : [r, s].Sublist sent := by
  obtain ⟨l, m, hsplit, hl, hm⟩ := List.sublist_append_iff.1 h
  rcases List.eq_nil_or_concat m with rfl | ⟨m, x, rfl⟩
  · rw [hsplit, List.append_nil]
    exact hl
  · rw [List.concat_eq_append] at hsplit
    have hends : [r] ++ [s] = (l ++ m) ++ [x] := by
      rw [List.append_assoc]
      exact hsplit
    obtain ⟨-, hx⟩ := List.append_inj' hends rfl
    obtain rfl : s = x := List.head_eq_of_cons_eq hx
    have hparked : s ∈ parked := hm.subset (by simp)
    exact absurd rfl ((List.nodup_append.1 hnodup).2.2 s hs s hparked)

theorem apart (hkey : (run.event n).key? ≠ some key) :
    (run.state (n + 1)).sentOf key = (run.state n).sentOf key ∧
    (run.state (n + 1)).parkedOf key = (run.state n).parkedOf key := by
  rw [state]
  cases hevent : run.event n with
  | quiet => exact ⟨rfl, rfl⟩
  | onAvailable key' =>
    have hne : key ≠ key' := fun h => hkey (by rw [hevent, h]; rfl)
    exact ⟨by rw [sentOf_onAvailable, if_neg hne, List.append_nil], by rw [parkedOf_onAvailable, if_neg hne]⟩
  | submit key' request =>
    have hne : key ≠ key' := fun h => hkey (by rw [hevent, h]; rfl)
    dsimp only
    cases run.available n key' with
    | true =>
      rw [sentOf_submit_available, if_neg hne, List.append_nil]
      exact ⟨rfl, rfl⟩
    | false =>
      rw [parkedOf_submit_parked, if_neg hne, List.append_nil]
      exact ⟨rfl, rfl⟩

/-- **What the component does with the requests of a key**, over every run in which a service that stays
available is reported. -/
theorem served (hreported : run.Reported) : run.Served := by
  constructor
  · intro key n
    have hline := run.lined key n
    refine ⟨(List.nodup_append.1 hline.nodup).1, fun r hr => ?_⟩
    exact (hline.submitted r (List.mem_append_left _ hr)).2
  · rintro key i request hsubmit ⟨n, hstays⟩
    obtain ⟨m, hm, hreport⟩ := hreported key (max n (i + 1))
      fun m hm => hstays m (Nat.le_trans (Nat.le_max_left _ _) hm)
    exact ⟨m + 1, sent_of_reported hsubmit (Nat.le_trans (Nat.le_max_right _ _) hm) hreport⟩
  · intro key n r hr i request hi hsubmit hparked
    have hline := run.lined key n
    have hpair := hline.ordered r (List.mem_append_left _ hr) i request hi hsubmit hparked
    exact sublist_sent hline.nodup hr hpair
  · exact fun key n => apart

/-- A request is parked, its service comes up, another request is submitted, and then the callback comes. -/
def overtaking : Run Nat where
  event
    | 0 => .submit (0x1234, 1) 1
    | 1 => .submit (0x1234, 1) 2
    | _ => .onAvailable (0x1234, 1)
  available n key := decide (1 ≤ n) && key == (0x1234, 1)

theorem overtaking_reported : overtaking.Reported := by
  intro key n hstays
  have hkey : key = (0x1234, 1) := by
    have h := hstays n le_rfl
    simp only [overtaking, Bool.and_eq_true, beq_iff_eq] at h
    exact h.2
  exact ⟨n + 2, by omega, by rw [hkey]; rfl⟩

/-- The run is served; the second request goes ahead of the first one. -/
theorem served_overtaking : overtaking.Served := served overtaking_reported

/-- **A submit between the two clocks overtakes what is parked.** -/
theorem not_inOrder_overtaking : overtaking.Reported ∧ ¬ overtaking.InOrder := by
  refine ⟨overtaking_reported, fun h => ?_⟩
  have hsent : (overtaking.state 3).sentOf (0x1234, 1) = [(1, 2), (0, 1)] := by decide
  have hpair := h (0x1234, 1) 3
  rw [hsent] at hpair
  exact absurd hpair (by decide)

end Run

end PendingRequests

end Tc8Harness.DutService
