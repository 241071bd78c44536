import Tc8Harness.Dut.Dhcpv4Reply

/-!
# BOUND, RENEWING and REBINDING

`runBoundPhaseMachine` of `dut/dut_service/dhcpv4_client.cpp`, one turn of its loop at a time. A turn reads
the clock, moves the phase and sends what is due (`tick`), and then looks at one reply (`onReply`). Instants
are ticks of the steady clock, in nanoseconds.
-/

namespace Tc8Harness.Dut

/-- `std::chrono::seconds` of a 32-bit count. -/
def seconds (n : UInt32) : Int := n.toNat * 1000000000

/-- `time_point::max()`. -/
def timePointMax : Int := 2 ^ 63 - 1

inductive Phase where
  | Bound
  | Renewing
  | Rebinding
  deriving DecidableEq, Repr

structure PhaseTimers where
  t1 : Int
  t2 : Int
  leaseEnd : Int
  deriving DecidableEq, Repr

/-- `armPhaseTimers`. The products are 32 bits wide. -/
def armPhaseTimers (behaviorFlavor : Dhcpv4BehaviorFlavor) (leaseSeconds : UInt32) (base : Int) :
    PhaseTimers :=
  let t1 :=
    if behaviorFlavor = .RenewingEntryNoDelay then base else base + seconds (leaseSeconds / 2)
  { t1 := t1
    t2 := if behaviorFlavor = .RebindingEntryEarly then t1 else base + seconds (leaseSeconds * 7 / 8)
    leaseEnd := base + seconds leaseSeconds }

/-- What a run of the machine is started with and keeps. -/
structure Binding where
  behaviorFlavor : Dhcpv4BehaviorFlavor
  xidBe : UInt32
  clientAddrBe : UInt32
  deriving DecidableEq, Repr

structure PhaseState where
  serverIdBe : UInt32
  timers : PhaseTimers
  phase : Phase
  nextRetx : Int
  deriving DecidableEq, Repr

variable (b : Binding)

/-- The machine armed at a BOUND instant. -/
def Binding.armed (serverIdBe leaseSeconds : UInt32) (base : Int) : PhaseState :=
  ⟨serverIdBe, armPhaseTimers b.behaviorFlavor leaseSeconds base, .Bound, timePointMax⟩

namespace PhaseState

variable (s : PhaseState) (now : Int)

/-- Half the time to `stop`, in the clock's ticks. -/
def halfwayTo (stop now : Int) : Int := now + (stop - now).tdiv 2

def renewingRetxAt : Int :=
  if b.behaviorFlavor = .RenewingRetxNoDelay then now else halfwayTo s.timers.t2 now

def renewingRequest : DhcpEmitSpec := emitDhcpRequestRenewing b.xidBe b.clientAddrBe s.serverIdBe

def rebindingRequest : DhcpEmitSpec := emitDhcpRequestRebinding b.xidBe b.clientAddrBe

/-! The four blocks of a turn that may send. -/

def enterRenewing : PhaseState × List DhcpEmitSpec :=
  if s.phase = .Bound ∧ now ≥ s.timers.t1 then
    ({ s with phase := .Renewing, nextRetx := s.renewingRetxAt b now }, [s.renewingRequest b])
  else (s, [])

def enterRebinding : PhaseState × List DhcpEmitSpec :=
  if s.phase = .Renewing ∧ now ≥ s.timers.t2 then
    ({ s with phase := .Rebinding, nextRetx := halfwayTo s.timers.leaseEnd now }, [rebindingRequest b])
  else (s, [])

def resendRenewing : PhaseState × List DhcpEmitSpec :=
  if s.phase = .Renewing ∧ now ≥ s.nextRetx ∧ now < s.timers.t2 then
    ({ s with nextRetx := s.renewingRetxAt b now }, [s.renewingRequest b])
  else (s, [])

def resendRebinding : PhaseState × List DhcpEmitSpec :=
  if s.phase = .Rebinding ∧ now ≥ s.nextRetx ∧ now < s.timers.leaseEnd then
    ({ s with nextRetx := halfwayTo s.timers.leaseEnd now }, [rebindingRequest b])
  else (s, [])

/-- The blocks in turn: the state after them and what they sent. -/
def tick : PhaseState × List DhcpEmitSpec :=
  let (s, entered) := s.enterRenewing b now
  let (s, rebound) := s.enterRebinding b now
  let (s, renewed) := s.resendRenewing b now
  let (s, resent) := s.resendRebinding b now
  (s, entered ++ (rebound ++ (renewed ++ resent)))

def expired : Bool := decide (now ≥ s.timers.leaseEnd)

/-- What a reply does: `none` where the machine returns. `rearmed` is the clock's reading at the
re-arming. -/
def onReply (r : Reply) (rearmed : Int) : Option PhaseState :=
  if r.msgType = kDhcpNak then none
  else if r.msgType = kDhcpAck ∧ r.leaseSeconds ≠ 0 then
    some (b.armed (if r.serverIdBe ≠ 0 then r.serverIdBe else s.serverIdBe) r.leaseSeconds rearmed)
  else some s

/-- One turn of the loop: `none` where the machine returns to INIT, and what was sent. -/
def turn (reply : Option (Reply × Int)) : Option PhaseState × List DhcpEmitSpec :=
  let (s, sent) := s.tick b now
  if s.expired now then (none, sent)
  else
    match reply with
    | none => (some s, sent)
    | some (r, rearmed) => (s.onReply b r rearmed, sent)

end PhaseState

end Tc8Harness.Dut
