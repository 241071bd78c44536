import Mathlib
import Tc8Harness.Dut.LinklocalClaim

/-!
# Probes after a known conflict

When `runLoop` keeps from probing for an address that is known to be taken. The worker tests
`conflict_detected_` when it resumes from the wait between two Probes, but not when it resumes from
PROBE_WAIT, and `pickLLAddress` draws the next address without regard to the last.

`watch` follows a run and holds the address whose conflict was recorded when the worker resumed from one of
these waits, until another address is tried or the claim attempt ends. `Prompt` is what a step must meet for
no Probe to go out for that address.
-/

namespace Tc8Harness.Dut.Linklocal

variable {dutMac : List UInt8} {params : Params} {s s' : State} {known : Option UInt32}

/-- The worker resumes from a wait with a conflict recorded. -/
def State.resumesKnowing (s : State) (deadline : Nat) : Bool :=
  !s.stopRequested && decide (s.now ≥ deadline) && s.conflictDetected

/-- The known conflict after a step. A claim attempt begins where `runLoop` is back at its outer loop. -/
def watch (s : State) (known : Option UInt32) : Action → Option UInt32
  | .work =>
    match s.worker with
    | .probeWait deadline | .intervalWait _ deadline =>
      if s.resumesKnowing deadline then some s.tentativeLl else known
    | .outer => none
    | _ => known
  | .pick x y => if known = some (State.llAddress x y) then known else none
  | _ => known

/-- The step sends no Probe for the address of the known conflict. -/
def Spares (s : State) (known : Option UInt32) : Action → Prop
  | .work =>
    match s.worker with
    | .probe _ => known ≠ some s.tentativeLl
    | _ => True
  | _ => True

/-- No conflict is recorded when the worker resumes from PROBE_WAIT, and the address of the known conflict
is not drawn. -/
def Prompt (s : State) (known : Option UInt32) : Action → Prop
  | .work =>
    match s.worker with
    | .probeWait deadline => s.resumesKnowing deadline = false
    | _ => True
  | .pick x y => known ≠ some (State.llAddress x y)
  | _ => True

def sparesCheck (s : State) (known : Option UInt32) : Action → Bool
  | .work =>
    match s.worker with
    | .probe _ => known != some s.tentativeLl
    | _ => true
  | _ => true

def promptCheck (s : State) (known : Option UInt32) : Action → Bool
  | .work =>
    match s.worker with
    | .probeWait deadline => !s.resumesKnowing deadline
    | _ => true
  | .pick x y => known != some (State.llAddress x y)
  | _ => true

theorem sparesCheck_iff (s : State) (known : Option UInt32) (action : Action) :
    sparesCheck s known action = true ↔ Spares s known action := by
  unfold sparesCheck Spares
  cases action <;> cases s.worker <;> simp

theorem promptCheck_iff (s : State) (known : Option UInt32) (action : Action) :
    promptCheck s known action = true ↔ Prompt s known action := by
  unfold promptCheck Prompt
  cases action <;> cases s.worker <;> simp

instance (s : State) (known : Option UInt32) (action : Action) : Decidable (Spares s known action) :=
  decidable_of_iff _ (sparesCheck_iff s known action)

instance (s : State) (known : Option UInt32) (action : Action) : Decidable (Prompt s known action) :=
  decidable_of_iff _ (promptCheck_iff s known action)

/-- Every step of the run, in the state it is taken in and with the conflict known by then. -/
def Throughout (params : Params) (dutMac : List UInt8) (P : State → Option UInt32 → Action → Prop) :
    State → Option UInt32 → List Action → Prop
  | _, _, [] => True
  | s, known, action :: actions => P s known action ∧
    ∀ s' ∈ step params dutMac s action, Throughout params dutMac P s' (watch s known action) actions

instance decidableThroughout (params : Params) (dutMac : List UInt8)
    (P : State → Option UInt32 → Action → Prop) [∀ s known action, Decidable (P s known action)] :
    (s : State) → (known : Option UInt32) → (actions : List Action) →
      Decidable (Throughout params dutMac P s known actions)
  | _, _, [] => isTrue trivial
  | s, known, action :: actions =>
    have : DecidablePred fun s' => Throughout params dutMac P s' (watch s known action) actions := fun s' =>
      decidableThroughout params dutMac P s' (watch s known action) actions
    inferInstanceAs (Decidable (P s known action ∧
      ∀ s' ∈ step params dutMac s action, Throughout params dutMac P s' (watch s known action) actions))

/-! ## Where the worker is with a known conflict -/

/-- The worker sends no Probe before it picks again. -/
def Worker.aside : Worker → Bool
  | .stopping .quit | .stopping .early | .joining .quit | .joining .early | .attempt | .rateLimitWait _
  | .pick | .done => true
  | _ => false

/-- With a known conflict, the worker is on its way to the next pick. -/
structure Knowing (s : State) (known : Option UInt32) : Prop where
  aside : known ≠ none → s.worker.aside = true ∨
    (∃ i, s.worker = .intervalEnded i) ∧ s.conflictDetected = true

theorem knowing_none (s : State) : Knowing s none := ⟨fun h => (h rfl).elim⟩

theorem Knowing.spares (h : Knowing s known) (action : Action) : Spares s known action := by
  unfold Spares
  split
  · split
    · next i hw =>
      rintro rfl
      rcases h.aside nofun with haside | ⟨⟨j, hended⟩, -⟩
      · rw [hw] at haside
        nomatch haside
      · rw [hw] at hended
        nomatch hended
    · trivial
  · trivial

/-- A step beside the worker's leaves the worker where it is and clears no conflict. -/
theorem Knowing.beside (h : Knowing s known) (hworker : s'.worker = s.worker)
    (hconflict : s.conflictDetected = true → s'.conflictDetected = true) : Knowing s' known := by
  refine ⟨fun hknown => ?_⟩
  rw [hworker]
  exact (h.aside hknown).imp_right (And.imp_right hconflict)

theorem Knowing.wake {deadline : Nat} {stopped next : Worker} (hstopped : stopped.aside = true)
    (hnext : next.aside = true) (hstep : s.wake deadline stopped next = some s') :
    Knowing s' known := by
  unfold State.wake at hstep
  split at hstep
  · obtain rfl := Option.some.inj hstep
    exact ⟨fun _ => .inl hstopped⟩
  · split at hstep
    · obtain rfl := Option.some.inj hstep
      exact ⟨fun _ => .inl hnext⟩
    · nomatch hstep

/-- Where no conflict can be known. -/
theorem Knowing.unknown (h : Knowing s known) (haside : s.worker.aside = false)
    (hended : ∀ i, s.worker = .intervalEnded i → s.conflictDetected = false) : known = none := by
  by_contra hknown
  rcases h.aside hknown with h | ⟨⟨i, hi⟩, h⟩
  · rw [haside] at h
    nomatch h
  · rw [hended i hi] at h
    nomatch h

theorem watch_work (hprobe : ∀ d, s.worker ≠ .probeWait d) (hinterval : ∀ i d, s.worker ≠ .intervalWait i d)
    (houter : s.worker ≠ .outer) : watch s known .work = known := by
  rw [watch]
  split
  · next d hw => exact (hprobe d hw).elim
  · next i d hw => exact (hinterval i d hw).elim
  · next hw => exact (houter hw).elim
  · rfl

theorem Knowing.workerStep (h : Knowing s known) (hprompt : Prompt s known .work)
    (hstep : s.workerStep params = some s') : Knowing s' (watch s known .work) := by
  cases hw : s.worker with
  | outer =>
    have hwatch : watch s known .work = none := by rw [watch, hw]
    rw [hwatch]
    exact knowing_none s'
  | probeWait deadline =>
    obtain rfl := h.unknown (by rw [hw]; rfl) (by rw [hw]; nofun)
    have hwatch : watch s none .work = none := by
      rw [Prompt, hw] at hprompt
      rw [watch, hw]
      exact if_neg (by rw [hprompt]; nofun)
    rw [hwatch]
    exact knowing_none s'
  | intervalWait i deadline =>
    obtain rfl := h.unknown (by rw [hw]; rfl) (by rw [hw]; nofun)
    rw [State.workerStep, hw] at hstep
    dsimp only at hstep
    refine ⟨fun hknown => ?_⟩
    rw [watch, hw] at hknown
    dsimp only at hknown
    split at hknown
    · next hresumes =>
      simp only [State.resumesKnowing, Bool.and_eq_true, Bool.not_eq_true', decide_eq_true_eq] at hresumes
      obtain ⟨⟨hstop, hdue⟩, hconflict⟩ := hresumes
      rw [State.wake, hstop, if_neg nofun, if_pos hdue] at hstep
      obtain rfl := Option.some.inj hstep
      exact .inr ⟨⟨i, rfl⟩, hconflict⟩
    · exact (hknown rfl).elim
  | intervalEnded i =>
    rw [watch_work (by rw [hw]; nofun) (by rw [hw]; nofun) (by rw [hw]; nofun)]
    rw [State.workerStep, hw] at hstep
    dsimp only at hstep
    split at hstep
    · obtain rfl := Option.some.inj hstep
      exact ⟨fun _ => .inl rfl⟩
    · next hclean =>
      obtain rfl := h.unknown (by rw [hw]; rfl) fun _ _ => Bool.eq_false_iff.2 hclean
      exact knowing_none s'
  | stopping next =>
    rw [watch_work (by rw [hw]; nofun) (by rw [hw]; nofun) (by rw [hw]; nofun)]
    rw [State.workerStep, hw] at hstep
    obtain rfl := Option.some.inj hstep
    cases next with
    | quit | early => exact ⟨fun _ => .inl rfl⟩
    | judge waitEnd =>
      obtain rfl := h.unknown (by rw [hw]; rfl) (by rw [hw]; nofun)
      exact knowing_none _
  | joining next =>
    rw [watch_work (by rw [hw]; nofun) (by rw [hw]; nofun) (by rw [hw]; nofun)]
    cases next with
    | judge waitEnd =>
      obtain rfl := h.unknown (by rw [hw]; rfl) (by rw [hw]; nofun)
      exact knowing_none s'
    | quit | early =>
      rw [State.workerStep, hw] at hstep
      dsimp only at hstep
      split at hstep
      · obtain rfl := Option.some.inj hstep
        exact ⟨fun _ => .inl rfl⟩
      · obtain rfl := Option.some.inj hstep
        exact ⟨fun _ => .inl rfl⟩
      · nomatch hstep
  | attempt =>
    rw [watch_work (by rw [hw]; nofun) (by rw [hw]; nofun) (by rw [hw]; nofun)]
    rw [State.workerStep, hw] at hstep
    dsimp only at hstep
    split at hstep
    · obtain rfl := Option.some.inj hstep
      exact ⟨fun _ => .inl rfl⟩
    · obtain rfl := Option.some.inj hstep
      exact ⟨fun _ => .inl rfl⟩
  | rateLimitWait deadline =>
    rw [watch_work (by rw [hw]; nofun) (by rw [hw]; nofun) (by rw [hw]; nofun)]
    rw [State.workerStep, hw] at hstep
    exact Knowing.wake rfl rfl hstep
  | pick | interval _ | done =>
    rw [State.workerStep, hw] at hstep
    nomatch hstep
  | discover | dhcpWait _ | probe _ | probed _ | announceWait _ | judgeStop _ | judgeConflict _
  | commit _ | announce _ | announceInterval _ | steady | ceased =>
    rw [watch_work (by rw [hw]; nofun) (by rw [hw]; nofun) (by rw [hw]; nofun)]
    obtain rfl := h.unknown (by rw [hw]; rfl) (by rw [hw]; nofun)
    exact knowing_none s'

/-! ## Runs -/

theorem Knowing.step (h : Knowing s known) {action : Action} (hprompt : Prompt s known action)
    (hstep : step params dutMac s action = some s') : Knowing s' (watch s known action) := by
  cases action with
  | work => exact h.workerStep hprompt hstep
  | pick x y =>
    have hwatch : watch s known (.pick x y) = none := if_neg hprompt
    rw [hwatch]
    exact knowing_none s'
  | interval ms =>
    -- the worker draws an interval only where no conflict is known
    have hknown : known = none := by
      refine h.unknown ?_ ?_
      · rw [Linklocal.step, State.intervalStep] at hstep
        split at hstep
        · next i hw =>
          rw [hw]
          rfl
        · nomatch hstep
      · intro i hw
        rw [Linklocal.step, State.intervalStep, hw] at hstep
        nomatch hstep
    rw [hknown]
    exact knowing_none s'
  | listen ok =>
    obtain ⟨hworker, -, -, -, -, hconflict⟩ := listenerStep_keeps hstep
    exact h.beside hworker hconflict
  | deliver frame =>
    rw [Linklocal.step, State.deliver] at hstep
    split at hstep
    · obtain rfl := Option.some.inj hstep
      exact h.beside rfl id
    · nomatch hstep
  | tick ms | abort | cease =>
    obtain rfl := Option.some.inj hstep
    exact h.beside rfl id

theorem Knowing.run {actions : List Action} (h : Knowing s known)
    (hprompt : Throughout params dutMac Prompt s known actions) :
    Throughout params dutMac Spares s known actions := by
  induction actions generalizing s known with
  | nil => trivial
  | cons action actions ih =>
    refine ⟨h.spares action, fun s' hs' => ?_⟩
    exact ih (h.step hprompt.1 hs') (hprompt.2 s' hs')

/-- **No Probe after a known conflict, where the worker learns of it in time.** In every run from `start`,
under every interleaving, in which no conflict is recorded when the worker resumes from PROBE_WAIT and the
address of a known conflict is not drawn again: no Probe is sent for an address whose conflict was recorded
when the worker resumed from a wait, until another address is tried or the claim attempt ends. -/
theorem no_probe_after_conflict (params : Params) (dutMac : List UInt8) (s₀ : State)
    (actions : List Action) (hprompt : Throughout params dutMac Prompt s₀ none actions) :
    Throughout params dutMac Spares s₀ none actions :=
  (knowing_none s₀).run hprompt

/-- The worker's way to PROBE_WAIT for an address, with the listener in its poll. -/
def toProbeWait (x y : UInt8) : List Action :=
  [.work, .pick x y, .listen true, .listen true, .listen true]

/-- The listener reads a conflicting frame. -/
def hearConflict : List Action :=
  [.deliver conflictingFrame, .listen true, .listen true, .listen true]

def toAttempt : List Action := [.work, .tick 200, .work, .work]

/-- A conflict that comes in the wait after the first Probe: the worker stops, picks another address and
probes for that one. -/
def heardInInterval : List Action :=
  toAttempt ++ toProbeWait 7 9 ++ [.tick 200, .work, .work, .work, .interval 200] ++ hearConflict ++
    [.tick 200, .work, .work, .work, .listen true, .work] ++ toProbeWait 7 10 ++ [.tick 200, .work, .work]

theorem no_probe_after_conflict_in_interval :
    (∃ s, run {} stationMac {} heardInInterval = some s ∧
      s.sent = [.dhcpDiscover, .arpProbe (State.llAddress 7 9), .arpProbe (State.llAddress 7 10)]) ∧
    Throughout {} stationMac Spares {} none heardInInterval := by
  have hprompt : Throughout {} stationMac Prompt {} none heardInInterval := by decide +kernel
  refine ⟨⟨_, rfl, ?_⟩, no_probe_after_conflict {} stationMac {} _ hprompt⟩
  decide

/-- A conflict that comes during PROBE_WAIT is recorded, and a Probe for the address still goes out. -/
theorem probe_after_conflict_in_probe_wait :
    Started {} ∧ ¬ Throughout {} stationMac Spares {} none
      (toAttempt ++ toProbeWait 7 9 ++ hearConflict ++ [.tick 200, .work, .work]) := by
  refine ⟨⟨rfl, rfl, rfl, rfl⟩, ?_⟩
  decide +kernel

end Tc8Harness.Dut.Linklocal
