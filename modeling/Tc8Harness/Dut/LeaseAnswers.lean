import Tc8Harness.Dut.Acquisition
import Tc8Harness.Dut.LeaseTerm
import Tc8Harness.Lib.Observe

/-!
# What changes a lease

The phase machine polls for replies in BOUND as it does in RENEWING and REBINDING, and takes any ACK or NAK
of its transaction for an answer. `AnsweredOnly` asks that only the answer to a REQUEST end the lease or
re-arm it; `answered_only_iff` says of which runs that is true: those in which no such reply arrives before
T1 in BOUND.
-/

namespace Tc8Harness.Dut

open Observe

/-- What the world gives to one turn: the clock, the datagrams of the poll and the clock at a re-arming. -/
structure Poll where
  now : Int
  datagrams : List (List UInt8) := []
  rearmed : Int := 0
  deriving DecidableEq, Repr

/-- What a turn comes to. -/
inductive TurnOutcome where
  | continues
  | rearms
  | returns
  deriving DecidableEq, Repr

namespace PhaseState

variable (b : Binding) (s : PhaseState) (now : Int)

/-- The branch a turn takes after what it sends. -/
def outcome (reply : Option (Reply × Int)) : TurnOutcome :=
  if (s.tick b now).1.expired now then .returns
  else
    match reply with
    | none => .continues
    | some (r, _) =>
      if r.msgType = kDhcpNak then .returns
      else if r.msgType = kDhcpAck ∧ r.leaseSeconds ≠ 0 then .rearms
      else .continues

/-- What each branch leaves: the state after the sending, a machine armed anew, or none. -/
inductive Leaves (reply : Option (Reply × Int)) : TurnOutcome → Option PhaseState → Prop
  | continues : Leaves reply .continues (some (s.tick b now).1)
  | rearms (r : Reply) (rearmed : Int) (serverIdBe : UInt32) (hreply : reply = some (r, rearmed)) :
    Leaves reply .rearms (some (b.armed serverIdBe r.leaseSeconds rearmed))
  | returns : Leaves reply .returns none

theorem turn_leaves (reply : Option (Reply × Int)) :
    Leaves b s now reply (s.outcome b now reply) (s.turn b now reply).1 := by
  unfold outcome turn
  dsimp only
  by_cases hexpired : (s.tick b now).1.expired now = true
  · rw [if_pos hexpired, if_pos hexpired]
    exact .returns
  rw [if_neg hexpired, if_neg hexpired]
  cases reply with
  | none => exact .continues
  | some reply =>
    obtain ⟨r, rearmed⟩ := reply
    dsimp only
    unfold onReply
    by_cases hnak : r.msgType = kDhcpNak
    · rw [if_pos hnak, if_pos hnak]
      exact .returns
    rw [if_neg hnak, if_neg hnak]
    split
    · exact .rearms r rearmed _ rfl
    · exact .continues

theorem expired_tick : (s.tick b now).1.expired now = decide (s.timers.leaseEnd ≤ now) := by
  rw [expired, tick_timers]

/-- The branch for a reply the turn comes to look at. -/
theorem outcome_of_reply {b : Binding} {s : PhaseState} {now : Int} {reply : Option (Reply × Int)}
    {r : Reply} (halive : (s.tick b now).1.expired now = false) (hreply : reply.map Prod.fst = some r) :
    s.outcome b now reply =
      if r.msgType = kDhcpNak then .returns
      else if r.msgType = kDhcpAck ∧ r.leaseSeconds ≠ 0 then .rearms
      else .continues := by
  obtain ⟨⟨r', rearmed⟩, rfl, rfl⟩ := Option.map_eq_some_iff.mp hreply
  rw [outcome, if_neg (by rw [halive]; simp)]

/-- A turn that finds the machine in BOUND before T1 sends nothing and leaves it there. -/
theorem tick_early {b : Binding} {s : PhaseState} {now : Int} (hphase : s.phase = .Bound)
    (hnow : now < s.timers.t1) : s.tick b now = (s, []) := by
  rw [s.tick_eq b now (if_neg fun h => by omega) (if_neg fun h => by simp [hphase] at h)
    (if_neg fun h => by simp [hphase] at h) (if_neg fun h => by simp [hphase] at h)]
  rfl

/-- Any other turn has a REQUEST behind it, of its own or of an earlier one. -/
theorem tick_late {b : Binding} {s : PhaseState} {now : Int}
    (h : s.phase = .Bound → s.timers.t1 ≤ now) :
    (s.tick b now).1.phase ≠ .Bound ∧ (s.phase = .Bound → (s.tick b now).2 ≠ []) := by
  constructor
  · rw [tick_phase]
    unfold enterRebinding
    split
    · simp
    · unfold enterRenewing
      split
      · simp
      · next hstay => exact fun hbound => hstay ⟨hbound, h hbound⟩
  · intro hbound
    have henter : s.enterRenewing b now =
        ({ s with phase := .Renewing, nextRetx := s.renewingRetxAt b now }, [s.renewingRequest b]) :=
      if_pos ⟨hbound, h hbound⟩
    simp [tick, henter]

end PhaseState

/-- The machine with what it has sent since the last BOUND instant: `state` is none once it has returned
to INIT, and `asked` is whether a RENEWING or REBINDING REQUEST went out. -/
structure LeaseRun where
  state : Option PhaseState
  asked : Bool := false
  deriving DecidableEq, Repr

section Run

variable (mac : Vector UInt8 6) (b : Binding)

/-- The poll of the machine: any message of the transaction. -/
def Poll.reply (p : Poll) : Option (Reply × Int) :=
  (pollForReply ⟨b.behaviorFlavor, mac, b.xidBe, 0⟩ p.datagrams).map (·, p.rearmed)

namespace LeaseRun

variable (m : LeaseRun) (p : Poll)

/-- Whether a REQUEST has been sent when the turn looks at its reply. -/
def askedBy (s : PhaseState) : Bool := m.asked || !(s.tick b p.now).2.isEmpty

def step : LeaseRun :=
  match m.state with
  | none => m
  | some s =>
    { state := (s.turn b p.now (p.reply mac b)).1
      asked := m.askedBy b p s && s.outcome b p.now (p.reply mac b) ≠ .rearms }

/-- **Only the answer to a REQUEST changes the lease.** An ACK or NAK that no REQUEST has gone before leaves
the turn to continue; and a turn that returns before the lease ends has a NAK that a REQUEST went before. -/
structure AnsweredOnly : Prop where
  kept : ∀ s r, m.state = some s → (s.tick b p.now).1.expired p.now = false →
    (p.reply mac b).map Prod.fst = some r → (r.msgType = kDhcpAck ∨ r.msgType = kDhcpNak) →
    m.askedBy b p s = false → s.outcome b p.now (p.reply mac b) = .continues
  returns : ∀ s, m.state = some s → s.outcome b p.now (p.reply mac b) = .returns →
    p.now < s.timers.leaseEnd →
    ∃ r, (p.reply mac b).map Prod.fst = some r ∧ r.msgType = kDhcpNak ∧ m.askedBy b p s = true

/-- No NAK, and no ACK with a lease time, arrives in BOUND before T1. -/
def Prompted : Prop :=
  ∀ s r, m.state = some s → s.phase = .Bound → p.now < s.timers.t1 → p.now < s.timers.leaseEnd →
    (p.reply mac b).map Prod.fst = some r →
    r.msgType ≠ kDhcpNak ∧ ¬ (r.msgType = kDhcpAck ∧ r.leaseSeconds ≠ 0)

/-- The machine is in BOUND exactly while nothing was asked. -/
def Asks (m : LeaseRun) : Prop := ∀ s, m.state = some s → (m.asked = true ↔ s.phase ≠ .Bound)

variable {mac b m p}

/-- Nothing has been asked exactly in BOUND before T1. -/
theorem askedBy_iff (h : Asks m) {s : PhaseState} (hs : m.state = some s) :
    m.askedBy b p s = true ↔ (s.tick b p.now).1.phase ≠ .Bound := by
  by_cases hearly : s.phase = .Bound ∧ p.now < s.timers.t1
  · have hunasked : m.asked = false := by
      have hasks := h s hs
      simpa [hearly.1] using hasks
    rw [askedBy, PhaseState.tick_early hearly.1 hearly.2, hunasked]
    simp [hearly.1]
  · have hlate : s.phase = .Bound → s.timers.t1 ≤ p.now :=
      fun hbound => Int.not_lt.mp fun hlt => hearly ⟨hbound, hlt⟩
    obtain ⟨hphase, hsends⟩ := PhaseState.tick_late (b := b) hlate
    refine iff_of_true ?_ hphase
    rw [askedBy]
    by_cases hbound : s.phase = .Bound
    · simp [hsends hbound]
    · rw [(h s hs).mpr hbound]
      rfl

theorem step_asks (h : Asks m) : Asks (m.step mac b p) := by
  unfold step
  split
  · exact h
  next s hs =>
  intro s' hs'
  have hasked := askedBy_iff (b := b) (p := p) h hs
  have hleaves := s.turn_leaves b p.now (p.reply mac b)
  dsimp only at hs' ⊢
  rw [hs'] at hleaves
  generalize s.outcome b p.now (p.reply mac b) = out at hleaves ⊢
  cases hleaves with
  | continues => simpa using hasked
  | rearms => simp [Binding.armed]

/-- A turn is answered only exactly when nothing unasked for arrives in it. -/
theorem answeredOnly_iff (h : Asks m) : AnsweredOnly mac b m p ↔ Prompted mac b m p := by
  have hunasked : ∀ s, m.state = some s → m.askedBy b p s = false →
      s.phase = .Bound ∧ p.now < s.timers.t1 := by
    intro s hs hfalse
    by_contra hearly
    have hlate : s.phase = .Bound → s.timers.t1 ≤ p.now :=
      fun hbound => Int.not_lt.mp fun hlt => hearly ⟨hbound, hlt⟩
    have htrue := (askedBy_iff (b := b) (p := p) h hs).mpr (PhaseState.tick_late hlate).1
    rw [hfalse] at htrue
    nomatch htrue
  constructor
  · intro honly s r hs hbound hnow hlease hreply
    have halive : (s.tick b p.now).1.expired p.now = false := by
      rw [PhaseState.expired_tick, decide_eq_false_iff_not]
      exact Int.not_le.mpr hlease
    have hfalse : m.askedBy b p s = false := by
      refine Bool.eq_false_iff.mpr fun htrue => (askedBy_iff h hs).mp htrue ?_
      rw [PhaseState.tick_early hbound hnow]
      exact hbound
    have hout := PhaseState.outcome_of_reply halive hreply
    constructor
    · intro hnak
      have hkept := honly.kept s r hs halive hreply (.inr hnak) hfalse
      rw [hout, if_pos hnak] at hkept
      nomatch hkept
    · intro hack
      have hnak : r.msgType ≠ kDhcpNak := by
        rw [hack.1]
        decide
      have hkept := honly.kept s r hs halive hreply (.inl hack.1) hfalse
      rw [hout, if_neg hnak, if_pos hack] at hkept
      nomatch hkept
  · intro hprompted
    constructor
    · intro s r hs halive hreply _ hfalse
      obtain ⟨hbound, hnow⟩ := hunasked s hs hfalse
      have hlease : p.now < s.timers.leaseEnd := by
        rw [PhaseState.expired_tick, decide_eq_false_iff_not] at halive
        exact Int.not_le.mp halive
      obtain ⟨hnak, hack⟩ := hprompted s r hs hbound hnow hlease hreply
      rw [PhaseState.outcome_of_reply halive hreply, if_neg hnak, if_neg hack]
    · intro s hs hout hlease
      have halive : (s.tick b p.now).1.expired p.now = false := by
        rw [PhaseState.expired_tick, decide_eq_false_iff_not]
        exact Int.not_le.mpr hlease
      cases hreply : (p.reply mac b).map Prod.fst with
      | none =>
        rw [Option.map_eq_none_iff] at hreply
        rw [hreply, PhaseState.outcome, if_neg (by rw [halive]; simp)] at hout
        nomatch hout
      | some r =>
        rw [PhaseState.outcome_of_reply halive hreply] at hout
        have hnak : r.msgType = kDhcpNak := by
          by_contra hnak
          rw [if_neg hnak] at hout
          split at hout <;> nomatch hout
        refine ⟨r, rfl, hnak, ?_⟩
        by_contra hfalse
        obtain ⟨hbound, hnow⟩ := hunasked s hs (Bool.eq_false_iff.mpr hfalse)
        exact (hprompted s r hs hbound hnow hlease hreply).1 hnak

/-- A machine as `runBoundPhaseMachine` starts it. -/
def boundAt (b : Binding) (serverIdBe leaseSeconds : UInt32) (base : Int) : LeaseRun :=
  { state := some (b.armed serverIdBe leaseSeconds base) }

theorem asks_boundAt (b : Binding) (serverIdBe leaseSeconds : UInt32) (base : Int) :
    Asks (boundAt b serverIdBe leaseSeconds base) := by
  rintro s ⟨⟩
  simp [boundAt, Binding.armed]

/-- **A lease changes only in answer to a REQUEST exactly while nothing arrives unasked.** For every run of
the machine, whatever the clock reads and whatever datagrams arrive: in every turn an ACK or NAK that no
REQUEST has gone before changes nothing, and the machine returns before the lease ends only on a NAK that
one has, if and only if in no turn a NAK, or an ACK with a lease time, arrives in BOUND before T1. -/
theorem answered_only_iff (mac : Vector UInt8 6) (b : Binding) (serverIdBe leaseSeconds : UInt32)
    (base : Int) (polls : List Poll) :
    Along (step mac b) (AnsweredOnly mac b) (boundAt b serverIdBe leaseSeconds base) polls ↔
      Along (step mac b) (Prompted mac b) (boundAt b serverIdBe leaseSeconds base) polls :=
  along_congr (fun _ _ h => step_asks h) (fun _ _ h => answeredOnly_iff h)
    (asks_boundAt b serverIdBe leaseSeconds base)

/-- The binding of a lease of 10.0.0.7 with the transaction id 1. -/
def sampleBinding : Binding := ⟨.None, 0x01000000, 0x0700000A⟩

/-- **A NAK in BOUND ends the lease.** One second into a lease of 60 no REQUEST has been sent. -/
theorem not_answered_only_nak :
    (step sampleSender.dutMac sampleBinding (boundAt sampleBinding 0x0100000A 60 0)
      ⟨1000000000, [sampleReply 6 [0, 0, 0, 0]], 0⟩).state = none ∧
    ¬ Along (step sampleSender.dutMac sampleBinding) (AnsweredOnly sampleSender.dutMac sampleBinding)
      (boundAt sampleBinding 0x0100000A 60 0) [⟨1000000000, [sampleReply 6 [0, 0, 0, 0]], 0⟩] := by
  refine ⟨by decide +kernel, fun hall => ?_⟩
  obtain ⟨r, -, -, hasked⟩ := hall.head.returns _ rfl (by decide +kernel) (by decide +kernel)
  exact absurd hasked (by decide +kernel)

end LeaseRun

end Run

end Tc8Harness.Dut
