import Tc8Harness.Dut.PhaseMachine

/-!
# When a lease is renewed

The phase machine without replies, along every sequence of clock readings that are close enough.
`OnSchedule` is the schedule of RFC 2131: the client asks the server from T1 on, everybody from T2 on, again
at half of what is left, and starts over when the lease ends. `AtTurn` says what the readings make of the
state, and `TurnEnd` what a turn then does; with timers that are far enough apart (`Spread`) the windows
of both phases are kept.
-/

namespace Tc8Harness.Dut

/-- The longest time between two readings of the clock, 100 ms. -/
def kMaxGap : Int := 100000000

/-- The readings of a steady clock from a BOUND instant on, the turns of the loop being short. -/
structure Clock (base : Int) where
  read : ℕ → Int
  start : base ≤ read 0
  startGap : read 0 ≤ base + kMaxGap
  mono : ∀ n, read n ≤ read (n + 1)
  gap : ∀ n, read (n + 1) ≤ read n + kMaxGap
  unbounded : ∀ t, ∃ n, t ≤ read n

namespace Clock

variable {base : Int} (clock : Clock base)

theorem monotone : Monotone clock.read := monotone_nat_of_le_succ clock.mono

/-- A reading with none from the instant on before it is close to it. -/
theorem read_le_of_before {t : Int} (ht : base ≤ t) {n : ℕ} (hbefore : ∀ k < n, clock.read k < t) :
    clock.read n ≤ t + kMaxGap := by
  cases n with
  | zero =>
    have hstart := clock.startGap
    omega
  | succ n =>
    have hlast := hbefore n (Nat.lt_succ_self n)
    have hgap := clock.gap n
    omega

/-- The first reading from an instant on. -/
theorem exists_first (t : Int) : ∃ n, t ≤ clock.read n ∧ ∀ k < n, clock.read k < t := by
  classical
  refine ⟨Nat.find (clock.unbounded t), Nat.find_spec (clock.unbounded t), ?_⟩
  intro k hk
  exact Int.not_le.1 (Nat.find_min (clock.unbounded t) hk)

end Clock

/-! ## The machine without replies -/

section Run

variable (b : Binding) (start : PhaseState) (read : ℕ → Int)

/-- The state a turn starts from; `none` once the machine has returned. -/
def unanswered : ℕ → Option PhaseState
  | 0 => some start
  | n + 1 => (unanswered n).bind fun s => (s.turn b (read n) none).1

/-- What the turn at a reading sends. -/
def sentAt (n : ℕ) : List DhcpEmitSpec :=
  match unanswered b start read n with
  | none => []
  | some s => (s.turn b (read n) none).2

def SendsAt (n : ℕ) (phase : DhcpPhase) : Prop := ∃ m ∈ sentAt b start read n, m.phase = phase

/-- The machine returns to INIT at a reading. -/
def ReturnsAt (n : ℕ) : Prop :=
  ∃ s, unanswered b start read n = some s ∧ (s.turn b (read n) none).1 = none

/-! ## The schedule -/

/-- When a message sent at an instant is due again. -/
def dueAfter (closes sent : Int) : Int := sent + (closes - sent) / 2

/-- The messages of one phase: between its start and its stop, at least one, and each further one at the
first reading from half of the remaining time on. -/
structure KeepsWindow (phase : DhcpPhase) (opens closes : Int) : Prop where
  inWindow : ∀ n, SendsAt b start read n phase → opens ≤ read n ∧ read n < closes
  sent : ∃ n, SendsAt b start read n phase
  first : ∀ m n, m < n → SendsAt b start read m phase → SendsAt b start read n phase →
    (∀ k, m < k → k < n → ¬ SendsAt b start read k phase) →
    dueAfter closes (read m) ≤ read n ∧ ∀ k, m < k → k < n → read k < dueAfter closes (read m)
  noneMissed : ∀ m n, m < n → SendsAt b start read m phase → dueAfter closes (read m) ≤ read n →
    read n < closes → ∃ k, m < k ∧ k ≤ n ∧ SendsAt b start read k phase

/-- The schedule of a lease of so many seconds. -/
structure OnSchedule (base : Int) (lease : ℕ) : Prop where
  renewing : KeepsWindow b start read .Renewing (base + (lease / 2 : ℕ) * 1000000000)
    (base + (7 * lease / 8 : ℕ) * 1000000000)
  rebinding : KeepsWindow b start read .Rebinding (base + (7 * lease / 8 : ℕ) * 1000000000)
    (base + lease * 1000000000)
  single : ∀ n, (sentAt b start read n).length ≤ 1
  returns : ∃ n, ReturnsAt b start read n ∧ base + lease * 1000000000 ≤ read n ∧
    ∀ k < n, read k < base + lease * 1000000000

end Run

/-! ## One turn -/

namespace PhaseState

/-- The four blocks one after the other. -/
theorem tick_eq (b : Binding) (s : PhaseState) (now : Int) {s₁ s₂ s₃ s₄ : PhaseState}
    {m₁ m₂ m₃ m₄ : List DhcpEmitSpec} (h₁ : s.enterRenewing b now = (s₁, m₁))
    (h₂ : s₁.enterRebinding b now = (s₂, m₂)) (h₃ : s₂.resendRenewing b now = (s₃, m₃))
    (h₄ : s₃.resendRebinding b now = (s₄, m₄)) :
    s.tick b now = (s₄, m₁ ++ (m₂ ++ (m₃ ++ m₄))) := by
  simp only [tick, h₁, h₂, h₃, h₄]

end PhaseState

section Turn

variable {b : Binding} (hflavor : b.behaviorFlavor = .None)

theorem halfwayTo_eq {closes now : Int} (h : now ≤ closes) :
    PhaseState.halfwayTo closes now = dueAfter closes now := by
  rw [PhaseState.halfwayTo, dueAfter, Int.tdiv_eq_ediv_of_nonneg (by omega)]

/-- What a turn does that finds its phase where the readings put it. -/
inductive TurnEnd (b : Binding) (s : PhaseState) (now : Int) : PhaseState × List DhcpEmitSpec → Prop
  | waits (early : s.phase = .Bound ∧ now < s.timers.t1 ∨
      s.phase = .Renewing ∧ now < s.timers.t2 ∧ now < s.nextRetx ∨
      s.phase = .Rebinding ∧ (now < s.nextRetx ∨ s.timers.leaseEnd ≤ now)) :
    TurnEnd b s now (s, [])
  | renews (window : s.timers.t1 ≤ now ∧ now < s.timers.t2)
    (due : s.phase = .Bound ∨ s.phase = .Renewing ∧ s.nextRetx ≤ now) :
    TurnEnd b s now ({ s with phase := .Renewing, nextRetx := dueAfter s.timers.t2 now },
      [s.renewingRequest b])
  | rebinds (window : s.timers.t2 ≤ now ∧ now < s.timers.leaseEnd)
    (due : s.phase = .Renewing ∨ s.phase = .Rebinding ∧ s.nextRetx ≤ now) :
    TurnEnd b s now ({ s with phase := .Rebinding, nextRetx := dueAfter s.timers.leaseEnd now },
      [PhaseState.rebindingRequest b])

theorem TurnEnd.timers_eq {s : PhaseState} {now : Int} {r : PhaseState × List DhcpEmitSpec}
    (h : TurnEnd b s now r) : r.1.timers = s.timers := by
  cases h <;> rfl

theorem tick_rebinding {s : PhaseState} {now : Int} (hphase : s.phase = .Rebinding)
    (hopen : s.timers.t2 ≤ now) : TurnEnd b s now (s.tick b now) := by
  have henter : s.enterRenewing b now = (s, []) := if_neg fun h => by simp [hphase] at h
  have hrebind : s.enterRebinding b now = (s, []) := if_neg fun h => by simp [hphase] at h
  have hresend : s.resendRenewing b now = (s, []) := if_neg fun h => by simp [hphase] at h
  by_cases hdue : s.nextRetx ≤ now ∧ now < s.timers.leaseEnd
  · rw [s.tick_eq b now henter hrebind hresend (if_pos ⟨hphase, hdue⟩), halfwayTo_eq (by omega),
      hphase]
    exact .rebinds ⟨hopen, hdue.2⟩ (.inr ⟨hphase, hdue.1⟩)
  · rw [s.tick_eq b now henter hrebind hresend (if_neg fun h => hdue h.2)]
    exact .waits (.inr (.inr ⟨hphase, by omega⟩))

include hflavor

theorem renewingRetxAt_eq {s : PhaseState} {now : Int} (h : now ≤ s.timers.t2) :
    s.renewingRetxAt b now = dueAfter s.timers.t2 now := by
  rw [PhaseState.renewingRetxAt, hflavor, if_neg (by decide), halfwayTo_eq h]

/-- A phase that is entered is entered well before it closes, and not sent for twice. -/
theorem tick_bound {s : PhaseState} {now : Int} (hphase : s.phase = .Bound)
    (hroom : now + 2 ≤ s.timers.t2) : TurnEnd b s now (s.tick b now) := by
  by_cases hdue : s.timers.t1 ≤ now
  · have hretx := renewingRetxAt_eq hflavor (show now ≤ s.timers.t2 by omega)
    have hlater : now < s.renewingRetxAt b now := by
      rw [hretx, dueAfter]
      omega
    rw [s.tick_eq b now (if_pos ⟨hphase, hdue⟩) (if_neg fun h => by have := h.2; dsimp at this; omega)
      (if_neg fun h => by have := h.2.1; dsimp at this; omega) (if_neg fun h => nomatch h.1), hretx]
    exact .renews ⟨hdue, by omega⟩ (.inl hphase)
  · rw [s.tick_eq b now (if_neg fun h => hdue h.2) (if_neg fun h => by simp [hphase] at h)
      (if_neg fun h => by simp [hphase] at h) (if_neg fun h => by simp [hphase] at h)]
    exact .waits (.inl ⟨hphase, by omega⟩)

theorem tick_renewing {s : PhaseState} {now : Int} (hphase : s.phase = .Renewing)
    (hopen : s.timers.t1 ≤ now) (hroom : s.timers.t2 ≤ now → now + 2 ≤ s.timers.leaseEnd) :
    TurnEnd b s now (s.tick b now) := by
  have henter : s.enterRenewing b now = (s, []) := if_neg fun h => by simp [hphase] at h
  by_cases hover : s.timers.t2 ≤ now
  · have hend := hroom hover
    have hhalf : PhaseState.halfwayTo s.timers.leaseEnd now = dueAfter s.timers.leaseEnd now :=
      halfwayTo_eq (by omega)
    have hlater : now < PhaseState.halfwayTo s.timers.leaseEnd now := by
      rw [hhalf, dueAfter]
      omega
    rw [s.tick_eq b now henter (if_pos ⟨hphase, hover⟩) (if_neg fun h => nomatch h.1)
      (if_neg fun h => by have := h.2.1; dsimp at this; omega), hhalf]
    exact .rebinds ⟨hover, by omega⟩ (.inl hphase)
  · have hrebind : s.enterRebinding b now = (s, []) := if_neg fun h => hover h.2
    by_cases hdue : s.nextRetx ≤ now
    · rw [s.tick_eq b now henter hrebind (if_pos ⟨hphase, hdue, by omega⟩)
        (if_neg fun h => by simp [hphase] at h), renewingRetxAt_eq hflavor (by omega), hphase]
      exact .renews ⟨hopen, by omega⟩ (.inr ⟨hphase, hdue⟩)
    · rw [s.tick_eq b now henter hrebind (if_neg fun h => hdue h.2.1)
        (if_neg fun h => by simp [hphase] at h)]
      exact .waits (.inr (.inl ⟨hphase, by omega, by omega⟩))

end Turn

/-! ## The run -/

section Unanswered

variable {b : Binding} {start : PhaseState} {read : ℕ → Int} {n : ℕ} {s : PhaseState}

theorem unanswered_succ (h : unanswered b start read n = some s)
    (hbefore : read n < (s.tick b (read n)).1.timers.leaseEnd) :
    unanswered b start read (n + 1) = some (s.tick b (read n)).1 := by
  have hnot : (s.tick b (read n)).1.expired (read n) = false := decide_eq_false (Int.not_le.2 hbefore)
  simp [unanswered, h, PhaseState.turn, hnot]

theorem sentAt_of_state (h : unanswered b start read n = some s) :
    sentAt b start read n = (s.tick b (read n)).2 := by
  rw [sentAt, h]
  dsimp only [PhaseState.turn]
  split <;> rfl

theorem returnsAt_of_state (h : unanswered b start read n = some s)
    (hover : (s.tick b (read n)).1.timers.leaseEnd ≤ read n) : ReturnsAt b start read n := by
  have hexpired : (s.tick b (read n)).1.expired (read n) = true := decide_eq_true hover
  exact ⟨s, h, by simp [PhaseState.turn, hexpired]⟩

end Unanswered

/-! ## Phases that are far enough apart -/

/-- The timers of a lease whose phases the loop cannot step over. -/
structure Spread (base : Int) (timers : PhaseTimers) : Prop where
  start : base ≤ timers.t1
  renewing : timers.t1 + kMaxGap + 2 ≤ timers.t2
  rebinding : timers.t2 + kMaxGap + 2 ≤ timers.leaseEnd

section Spread

variable {b : Binding} {start : PhaseState} {base : Int} (clock : Clock base)

/-- The last message of a phase, and that nothing was due since. -/
structure Waiting (b : Binding) (start : PhaseState) (read : ℕ → Int) (phase : DhcpPhase)
    (opens closes retx : Int) (n m : ℕ) : Prop where
  earlier : m < n
  sent : SendsAt b start read m phase
  opened : opens ≤ read m
  due : retx = dueAfter closes (read m)
  quiet : ∀ k, m < k → k < n → read k < retx ∧ ¬ SendsAt b start read k phase

/-- What the readings so far say about the state a turn starts from. -/
inductive AtTurn (b : Binding) (start : PhaseState) (read : ℕ → Int) (n : ℕ) (s : PhaseState) : Prop
  | bound (phase : s.phase = .Bound) (early : ∀ k < n, read k < s.timers.t1)
  | renewing (phase : s.phase = .Renewing) (early : ∀ k < n, read k < s.timers.t2) (m : ℕ)
    (waiting : Waiting b start read .Renewing s.timers.t1 s.timers.t2 s.nextRetx n m)
  | rebinding (phase : s.phase = .Rebinding) (m : ℕ)
    (waiting : Waiting b start read .Rebinding s.timers.t2 s.timers.leaseEnd s.nextRetx n m)

variable {n : ℕ} {s : PhaseState}

/-- A message sent now is the last one. -/
theorem Waiting.now {read : ℕ → Int} {phase : DhcpPhase} {opens closes : Int}
    (hsent : SendsAt b start read n phase) (hopened : opens ≤ read n) :
    Waiting b start read phase opens closes (dueAfter closes (read n)) (n + 1) n :=
  ⟨Nat.lt_succ_self n, hsent, hopened, rfl, fun k hk hk' => absurd hk' (by omega)⟩

/-- A turn that neither sends nor is due leaves the last message where it was. -/
theorem Waiting.later {read : ℕ → Int} {phase : DhcpPhase} {opens closes retx : Int} {m : ℕ}
    (h : Waiting b start read phase opens closes retx n m) (hearly : read n < retx)
    (hquiet : ¬ SendsAt b start read n phase) :
    Waiting b start read phase opens closes retx (n + 1) m where
  earlier := Nat.lt_succ_of_lt h.earlier
  sent := h.sent
  opened := h.opened
  due := h.due
  quiet k hk hk' := by
    rcases Nat.lt_succ_iff_lt_or_eq.1 hk' with hk' | rfl
    · exact h.quiet k hk hk'
    · exact ⟨hearly, hquiet⟩

theorem not_sendsAt_nil {read : ℕ → Int} (h : sentAt b start read n = []) (phase : DhcpPhase) :
    ¬ SendsAt b start read n phase := by
  rintro ⟨m, hm, -⟩
  rw [h] at hm
  cases hm

/-- Where the readings put the phase, a turn ends as `TurnEnd` says. -/
theorem AtTurn.turnEnd (hflavor : b.behaviorFlavor = .None) (hspread : Spread base s.timers)
    (h : AtTurn b start clock.read n s) : TurnEnd b s (clock.read n) (s.tick b (clock.read n)) := by
  have hstart := hspread.start
  have hrenewing := hspread.renewing
  have hrebinding := hspread.rebinding
  have hgap : (0 : Int) ≤ kMaxGap := by decide
  cases h with
  | bound hphase hearly =>
    have hnear := clock.read_le_of_before hstart hearly
    exact tick_bound hflavor hphase (by omega)
  | renewing hphase hearly m hwaiting =>
    have hnear := clock.read_le_of_before (by omega) hearly
    have hafter := clock.monotone (Nat.le_of_lt hwaiting.earlier)
    exact tick_renewing hflavor hphase (le_trans hwaiting.opened hafter) (by omega)
  | rebinding hphase m hwaiting =>
    have hafter := clock.monotone (Nat.le_of_lt hwaiting.earlier)
    exact tick_rebinding hphase (le_trans hwaiting.opened hafter)

/-- The state the next turn starts from fits the readings again. -/
theorem AtTurn.succ {s' : PhaseState} {sent : List DhcpEmitSpec}
    (h : AtTurn b start clock.read n s) (hend : TurnEnd b s (clock.read n) (s', sent))
    (hsent : sentAt b start clock.read n = sent) (hbefore : clock.read n < s.timers.leaseEnd) :
    s'.timers = s.timers ∧ AtTurn b start clock.read (n + 1) s' := by
  generalize hres : (s', sent) = res at hend
  cases hend with
  | waits hearly =>
    cases hres
    have hquiet := not_sendsAt_nil hsent
    refine ⟨rfl, ?_⟩
    cases h with
    | bound hphase hbound =>
      refine .bound hphase fun k hk => ?_
      rcases Nat.lt_succ_iff_lt_or_eq.1 hk with hk | rfl
      · exact hbound k hk
      · simp_all
    | renewing hphase hbound m hwaiting =>
      have hnow : clock.read n < s.timers.t2 ∧ clock.read n < s.nextRetx := by simp_all
      refine .renewing hphase (fun k hk => ?_) m (hwaiting.later hnow.2 (hquiet _))
      rcases Nat.lt_succ_iff_lt_or_eq.1 hk with hk | rfl
      · exact hbound k hk
      · exact hnow.1
    | rebinding hphase m hwaiting =>
      have hnow : clock.read n < s.nextRetx := by
        rcases hearly with hb | hr | ⟨-, hlate | hover⟩
        · simp_all
        · simp_all
        · exact hlate
        · omega
      exact .rebinding hphase m (hwaiting.later hnow (hquiet _))
  | renews hwindow hdue =>
    cases hres
    have hnow : SendsAt b start clock.read n .Renewing := ⟨_, by rw [hsent]; exact List.mem_singleton_self _, rfl⟩
    refine ⟨rfl, .renewing rfl (fun k hk => ?_) n (Waiting.now hnow hwindow.1)⟩
    have hk' := clock.monotone (Nat.le_of_lt_succ hk)
    exact lt_of_le_of_lt hk' hwindow.2
  | rebinds hwindow hdue =>
    cases hres
    have hnow : SendsAt b start clock.read n .Rebinding := ⟨_, by rw [hsent]; exact List.mem_singleton_self _, rfl⟩
    exact ⟨rfl, .rebinding rfl n (Waiting.now hnow hwindow.1)⟩

/-- A message is sent when its phase is entered, or when it is due again. -/
def SentInTurn (b : Binding) (start : PhaseState) (read : ℕ → Int) (phase : DhcpPhase)
    (opens closes : Int) (n : ℕ) : Prop :=
  opens ≤ read n ∧ read n < closes ∧
    ((∀ k < n, ¬ SendsAt b start read k phase) ∨
      ∃ retx m, Waiting b start read phase opens closes retx n m ∧ retx ≤ read n)

/-- The window of a phase is kept when each message is sent in turn, and a message that is due is sent. -/
theorem keepsWindow_of {read : ℕ → Int} {phase : DhcpPhase} {opens closes : Int}
    (hturn : ∀ n, SendsAt b start read n phase → SentInTurn b start read phase opens closes n)
    (hdue : ∀ m n, m < n → SendsAt b start read m phase → read n < closes →
      ∃ retx m', Waiting b start read phase opens closes retx n m' ∧
        (retx ≤ read n → SendsAt b start read n phase))
    (hsent : ∃ n, SendsAt b start read n phase) :
    KeepsWindow b start read phase opens closes where
  inWindow n h := ⟨(hturn n h).1, (hturn n h).2.1⟩
  sent := hsent
  first m n hmn hm hn hnone := by
    obtain ⟨-, -, hfirst | ⟨retx, m', hwaiting, hretx⟩⟩ := hturn n hn
    · exact absurd hm (hfirst m hmn)
    · have hsame : m' = m := by
        rcases Nat.lt_trichotomy m' m with hlt | heq | hgt
        · exact absurd hm (hwaiting.quiet m hlt hmn).2
        · exact heq
        · exact absurd hwaiting.sent (hnone m' hgt hwaiting.earlier)
      subst hsame
      rw [← hwaiting.due]
      exact ⟨hretx, fun k hk hk' => (hwaiting.quiet k hk hk').1⟩
  noneMissed m n hmn hm hretx hopen := by
    obtain ⟨retx, m', hwaiting, hsends⟩ := hdue m n hmn hm hopen
    rcases Nat.lt_trichotomy m' m with hlt | rfl | hgt
    · exact absurd hm (hwaiting.quiet m hlt hmn).2
    · exact ⟨n, hmn, Nat.le_refl n, hsends (by rwa [hwaiting.due])⟩
    · exact ⟨m', hgt, Nat.le_of_lt hwaiting.earlier, hwaiting.sent⟩

variable (hflavor : b.behaviorFlavor = .None) (hspread : Spread base start.timers)
  (hbound : start.phase = .Bound)
include hflavor hspread hbound

/-- Every turn starts where the readings put it. -/
theorem atTurn_of_unanswered (h : unanswered b start clock.read n = some s) :
    s.timers = start.timers ∧ AtTurn b start clock.read n s := by
  induction n generalizing s with
  | zero =>
    cases h
    exact ⟨rfl, .bound hbound fun k hk => absurd hk (Nat.not_lt_zero k)⟩
  | succ n ih =>
    obtain ⟨s₀, hs₀, hturn⟩ := Option.bind_eq_some_iff.1 h
    obtain ⟨htimers, hat⟩ := ih hs₀
    have hend := hat.turnEnd clock hflavor (by rwa [htimers])
    have hsent := sentAt_of_state hs₀
    rcases htick : s₀.tick b (clock.read n) with ⟨s₁, sent⟩
    rw [htick] at hend hsent
    have hkept : s₁.timers = s₀.timers := hend.timers_eq
    simp only [PhaseState.turn, htick] at hturn
    split at hturn
    · cases hturn
    · rename_i hnot
      cases hturn
      have hbefore : clock.read n < s₀.timers.leaseEnd := by
        rw [← hkept]
        exact Int.not_le.1 fun hover => hnot (decide_eq_true hover)
      obtain ⟨hsame, hnext⟩ := hat.succ clock hend hsent hbefore
      exact ⟨hsame.trans htimers, hnext⟩

/-- The machine is still running when no reading was past the lease. -/
theorem exists_unanswered (hbefore : ∀ k < n, clock.read k < start.timers.leaseEnd) :
    ∃ s, unanswered b start clock.read n = some s := by
  induction n with
  | zero => exact ⟨start, rfl⟩
  | succ n ih =>
    obtain ⟨s, hs⟩ := ih fun k hk => hbefore k (Nat.lt_succ_of_lt hk)
    obtain ⟨htimers, hat⟩ := atTurn_of_unanswered clock hflavor hspread hbound hs
    have hkept := (hat.turnEnd clock hflavor (by rwa [htimers])).timers_eq
    refine ⟨_, unanswered_succ hs ?_⟩
    rw [hkept, htimers]
    exact hbefore n (Nat.lt_succ_self n)

/-- What a turn that sends was about. -/
theorem sendsAt_cases {phase : DhcpPhase} (h : SendsAt b start clock.read n phase) :
    ∃ s, s.timers = start.timers ∧ AtTurn b start clock.read n s ∧
      (phase = .Renewing ∧ (start.timers.t1 ≤ clock.read n ∧ clock.read n < start.timers.t2) ∧
          (s.phase = .Bound ∨ s.phase = .Renewing ∧ s.nextRetx ≤ clock.read n) ∨
        phase = .Rebinding ∧
          (start.timers.t2 ≤ clock.read n ∧ clock.read n < start.timers.leaseEnd) ∧
          (s.phase = .Renewing ∨ s.phase = .Rebinding ∧ s.nextRetx ≤ clock.read n)) := by
  obtain ⟨msg, hmem, hphase⟩ := h
  rcases hs : unanswered b start clock.read n with _ | s
  · simp [sentAt, hs] at hmem
  obtain ⟨htimers, hat⟩ := atTurn_of_unanswered clock hflavor hspread hbound hs
  have hend := hat.turnEnd clock hflavor (by rwa [htimers])
  rw [sentAt_of_state hs] at hmem
  refine ⟨s, htimers, hat, ?_⟩
  rw [← htimers]
  generalize s.tick b (clock.read n) = r at hend hmem
  cases hend with
  | waits => cases hmem
  | renews hwindow hdue =>
    rw [List.mem_singleton.1 hmem] at hphase
    exact .inl ⟨hphase.symm, hwindow, hdue⟩
  | rebinds hwindow hdue =>
    rw [List.mem_singleton.1 hmem] at hphase
    exact .inr ⟨hphase.symm, hwindow, hdue⟩

/-- What a turn sends whose state and reading are known. -/
theorem sendsAt_of_turn (hs : unanswered b start clock.read n = some s) {phase : DhcpPhase}
    (h : ∀ r, TurnEnd b s (clock.read n) r → ∃ m ∈ r.2, m.phase = phase) :
    SendsAt b start clock.read n phase := by
  obtain ⟨htimers, hat⟩ := atTurn_of_unanswered clock hflavor hspread hbound hs
  rw [SendsAt, sentAt_of_state hs]
  exact h _ (hat.turnEnd clock hflavor (by rwa [htimers]))

theorem opened_of_sendsAt {k : ℕ} :
    (SendsAt b start clock.read k .Renewing → start.timers.t1 ≤ clock.read k) ∧
      (SendsAt b start clock.read k .Rebinding → start.timers.t2 ≤ clock.read k) := by
  constructor
  · intro hk
    obtain ⟨s, -, -, ⟨-, hwindow, -⟩ | ⟨hno, -⟩⟩ := sendsAt_cases clock hflavor hspread hbound hk
    · exact hwindow.1
    · cases hno
  · intro hk
    obtain ⟨s, -, -, ⟨hno, -⟩ | ⟨-, hwindow, -⟩⟩ := sendsAt_cases clock hflavor hspread hbound hk
    · cases hno
    · exact hwindow.1

theorem sentInTurn_renewing (hn : SendsAt b start clock.read n .Renewing) :
    SentInTurn b start clock.read .Renewing start.timers.t1 start.timers.t2 n := by
  obtain ⟨s, htimers, hat, ⟨-, hwindow, hdue⟩ | ⟨hno, -⟩⟩ :=
    sendsAt_cases clock hflavor hspread hbound hn
  · refine ⟨hwindow.1, hwindow.2, ?_⟩
    rw [← htimers]
    cases hat with
    | bound hphase hearly =>
      refine .inl fun k hk hsends => ?_
      have hopened := (opened_of_sendsAt clock hflavor hspread hbound).1 hsends
      rw [← htimers] at hopened
      exact absurd (hearly k hk) (Int.not_lt.2 hopened)
    | renewing hphase hearly m hwaiting =>
      rcases hdue with hno | ⟨-, hretx⟩
      · rw [hphase] at hno
        cases hno
      · exact .inr ⟨_, m, hwaiting, hretx⟩
    | rebinding hphase m hwaiting => simp [hphase] at hdue
  · cases hno

theorem sentInTurn_rebinding (hn : SendsAt b start clock.read n .Rebinding) :
    SentInTurn b start clock.read .Rebinding start.timers.t2 start.timers.leaseEnd n := by
  obtain ⟨s, htimers, hat, ⟨hno, -⟩ | ⟨-, hwindow, hdue⟩⟩ :=
    sendsAt_cases clock hflavor hspread hbound hn
  · cases hno
  · refine ⟨hwindow.1, hwindow.2, ?_⟩
    rw [← htimers]
    cases hat with
    | bound hphase hearly => simp [hphase] at hdue
    | renewing hphase hearly m hwaiting =>
      refine .inl fun k hk hsends => ?_
      have hopened := (opened_of_sendsAt clock hflavor hspread hbound).2 hsends
      rw [← htimers] at hopened
      exact absurd (hearly k hk) (Int.not_lt.2 hopened)
    | rebinding hphase m hwaiting =>
      rcases hdue with hno | ⟨-, hretx⟩
      · rw [hphase] at hno
        cases hno
      · exact .inr ⟨_, m, hwaiting, hretx⟩

/-- The state of a turn before the end of the lease. -/
theorem exists_atTurn (hbefore : ∀ k < n, clock.read k < start.timers.leaseEnd) :
    ∃ s, unanswered b start clock.read n = some s ∧ s.timers = start.timers ∧
      AtTurn b start clock.read n s := by
  obtain ⟨s, hs⟩ := exists_unanswered clock hflavor hspread hbound hbefore
  exact ⟨s, hs, atTurn_of_unanswered clock hflavor hspread hbound hs⟩

/-- In the renewal window, once a REQUEST was sent, the next is sent as soon as it is due. -/
theorem due_renewing {m : ℕ} (hmn : m < n) (hm : SendsAt b start clock.read m .Renewing)
    (hopen : clock.read n < start.timers.t2) :
    ∃ retx m', Waiting b start clock.read .Renewing start.timers.t1 start.timers.t2 retx n m' ∧
      (retx ≤ clock.read n → SendsAt b start clock.read n .Renewing) := by
  have hrebinding := hspread.rebinding
  have hgap : (0 : Int) ≤ kMaxGap := by decide
  have hopened := (opened_of_sendsAt clock hflavor hspread hbound).1 hm
  obtain ⟨s, hs, htimers, hat⟩ := exists_atTurn clock hflavor hspread hbound (n := n) fun k hk => by
    have hk' := clock.monotone (Nat.le_of_lt hk)
    omega
  rw [← htimers] at hopen hopened ⊢
  cases hat with
  | bound hphase hearly => exact absurd (hearly m hmn) (Int.not_lt.2 hopened)
  | renewing hphase hearly m' hwaiting =>
    refine ⟨_, m', hwaiting, fun hretx => ?_⟩
    refine sendsAt_of_turn clock hflavor hspread hbound hs fun r hr => ?_
    cases hr with
    | waits hwait =>
      simp only [hphase, reduceCtorEq, false_and, true_and, false_or, or_false] at hwait
      omega
    | renews => exact ⟨_, List.mem_singleton_self _, rfl⟩
    | rebinds hwindow => exact absurd hwindow.1 (Int.not_le.2 hopen)
  | rebinding hphase m' hwaiting =>
    have hafter := clock.monotone (Nat.le_of_lt hwaiting.earlier)
    exact absurd (le_trans hwaiting.opened hafter) (Int.not_le.2 hopen)

theorem due_rebinding {m : ℕ} (hmn : m < n) (hm : SendsAt b start clock.read m .Rebinding)
    (hopen : clock.read n < start.timers.leaseEnd) :
    ∃ retx m', Waiting b start clock.read .Rebinding start.timers.t2 start.timers.leaseEnd retx n m' ∧
      (retx ≤ clock.read n → SendsAt b start clock.read n .Rebinding) := by
  have hrenewing := hspread.renewing
  have hgap : (0 : Int) ≤ kMaxGap := by decide
  have hopened := (opened_of_sendsAt clock hflavor hspread hbound).2 hm
  obtain ⟨s, hs, htimers, hat⟩ := exists_atTurn clock hflavor hspread hbound (n := n) fun k hk =>
    lt_of_le_of_lt (clock.monotone (Nat.le_of_lt hk)) hopen
  rw [← htimers] at hopen hopened hrenewing ⊢
  cases hat with
  | bound hphase hearly =>
    have hearly' := hearly m hmn
    omega
  | renewing hphase hearly m' hwaiting => exact absurd (hearly m hmn) (Int.not_lt.2 hopened)
  | rebinding hphase m' hwaiting =>
    refine ⟨_, m', hwaiting, fun hretx => ?_⟩
    refine sendsAt_of_turn clock hflavor hspread hbound hs fun r hr => ?_
    cases hr with
    | waits hwait =>
      simp only [hphase, reduceCtorEq, false_and, true_and, false_or] at hwait
      omega
    | renews _ hdue => simp [hphase] at hdue
    | rebinds => exact ⟨_, List.mem_singleton_self _, rfl⟩

/-- The first reading from T1 on sends a RENEWING REQUEST. -/
theorem exists_sends_renewing : ∃ n, SendsAt b start clock.read n .Renewing := by
  have hrenewing := hspread.renewing
  have hrebinding := hspread.rebinding
  have hgap : (0 : Int) ≤ kMaxGap := by decide
  obtain ⟨n, hreached, hfirst⟩ := clock.exists_first start.timers.t1
  obtain ⟨s, hs, htimers, hat⟩ := exists_atTurn clock hflavor hspread hbound (n := n) fun k hk => by
    have hk' := hfirst k hk
    omega
  rw [← htimers] at hreached hfirst hrenewing
  refine ⟨n, ?_⟩
  cases hat with
  | bound hphase hearly =>
    refine sendsAt_of_turn clock hflavor hspread hbound hs fun r hr => ?_
    cases hr with
    | waits hwait =>
      simp only [hphase, reduceCtorEq, false_and, true_and, or_false] at hwait
      omega
    | renews => exact ⟨_, List.mem_singleton_self _, rfl⟩
    | rebinds _ hdue => simp [hphase] at hdue
  | renewing hphase hearly m hwaiting =>
    exact absurd hwaiting.opened (Int.not_le.2 (hfirst m hwaiting.earlier))
  | rebinding hphase m hwaiting =>
    have hopened := hwaiting.opened
    have hearly := hfirst m hwaiting.earlier
    omega

/-- The first reading from T2 on sends a REBINDING REQUEST. -/
theorem exists_sends_rebinding : ∃ n, SendsAt b start clock.read n .Rebinding := by
  have hstart := hspread.start
  have hrenewing := hspread.renewing
  have hrebinding := hspread.rebinding
  have hgap : (0 : Int) ≤ kMaxGap := by decide
  obtain ⟨n, hreached, hfirst⟩ := clock.exists_first start.timers.t2
  obtain ⟨s, hs, htimers, hat⟩ := exists_atTurn clock hflavor hspread hbound (n := n) fun k hk => by
    have hk' := hfirst k hk
    omega
  rw [← htimers] at hreached hfirst hrenewing hstart
  refine ⟨n, ?_⟩
  cases hat with
  | bound hphase hearly =>
    have hnear := clock.read_le_of_before hstart hearly
    omega
  | renewing hphase hearly m hwaiting =>
    refine sendsAt_of_turn clock hflavor hspread hbound hs fun r hr => ?_
    cases hr with
    | waits hwait =>
      simp only [hphase, reduceCtorEq, false_and, true_and, false_or, or_false] at hwait
      omega
    | renews hwindow => exact absurd hreached (Int.not_le.2 hwindow.2)
    | rebinds => exact ⟨_, List.mem_singleton_self _, rfl⟩
  | rebinding hphase m hwaiting =>
    exact absurd hwaiting.opened (Int.not_le.2 (hfirst m hwaiting.earlier))

theorem length_sentAt_le (n : ℕ) : (sentAt b start clock.read n).length ≤ 1 := by
  rcases hs : unanswered b start clock.read n with _ | s
  · simp [sentAt, hs]
  · obtain ⟨htimers, hat⟩ := atTurn_of_unanswered clock hflavor hspread hbound hs
    have hend := hat.turnEnd clock hflavor (by rwa [htimers])
    rw [sentAt_of_state hs]
    generalize s.tick b (clock.read n) = r at hend
    cases hend <;> simp

theorem exists_returnsAt : ∃ n, ReturnsAt b start clock.read n ∧
    start.timers.leaseEnd ≤ clock.read n ∧ ∀ k < n, clock.read k < start.timers.leaseEnd := by
  obtain ⟨n, hreached, hfirst⟩ := clock.exists_first start.timers.leaseEnd
  obtain ⟨s, hs, htimers, hat⟩ := exists_atTurn clock hflavor hspread hbound hfirst
  have hkept := (hat.turnEnd clock hflavor (by rwa [htimers])).timers_eq
  exact ⟨n, returnsAt_of_state hs (by rwa [hkept, htimers]), hreached, hfirst⟩

end Spread

end Tc8Harness.Dut
