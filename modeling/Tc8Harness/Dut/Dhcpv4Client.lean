import Tc8Harness.Dut.PhaseMachine

/-!
# The DHCP client

`Dhcpv4Client::runLoop` of `dut/dut_service/dhcpv4_client.cpp` as a machine: the points its worker thread
passes through, and a step from each to the next. A step makes at most one test of the stop flag, and takes
the lock of the lease at most once: what another thread can see lies between two steps. What the world
answers in a step (the flag, the clock, the drawn transaction id, the datagrams that arrive in time) is its
`Answers`. `log` records what the client did, in order.
-/

namespace Tc8Harness.Dut

open Wire Someip

/-- What `OpStartDhcpClient` sets, without the lengths of the waits. -/
structure Params where
  retryCount : UInt8 := 1
  /-- Whether the address is probed at all. -/
  probes : Bool := false
  flavor : Dhcpv4ClientFlavor := .None
  behaviorFlavor : Dhcpv4BehaviorFlavor := .None
  deriving DecidableEq, Repr

/-- What the client did. -/
inductive Event where
  /-- A DHCP message of a phase, as the bytes of its frame. -/
  | sent (phase : DhcpPhase) (frame : List UInt8)
  | offered (offer : Reply)
  | bound (ack : Reply)
  | renewed (ack : Reply)
  | released
  | routeInstalled (gatewayBe : UInt32)
  | routeRemoved (gatewayBe : UInt32)
  | arpProbe (targetIpBe : UInt32)
  | arpAnnounce (committedIpBe : UInt32)
  deriving DecidableEq, Repr

/-- Where the worker is. -/
inductive Point where
  /-- The head of the outer loop. -/
  | init
  /-- The head of the loop over the attempts. -/
  | attempt (xidBe : UInt32) (attempt : UInt8)
  | offerWait (xidBe : UInt32) (attempt : UInt8)
  | ackWait (xidBe : UInt32) (attempt : UInt8) (offer : Reply)
  | bound (xidBe : UInt32) (ack : Reply)
  | probe (xidBe : UInt32) (ack : Reply)
  | arm (xidBe : UInt32) (ack : Reply)
  | phase (binding : Binding) (state : PhaseState)
  /-- The lease has ended, and the worker has not taken the lock to clear it. -/
  | restart
  /-- The lease is cleared, and the route that came with it is to be removed. -/
  | unroute (toRemove : UInt32)
  /-- No attempt got an ACK. -/
  | parked
  /-- BOUND without a lease time. -/
  | idle
  | done
  deriving DecidableEq, Repr

structure Client where
  point : Point := .init
  committedLeaseBe : UInt32 := 0
  installedRouterBe : UInt32 := 0
  log : List Event := []
  deriving DecidableEq, Repr

/-- What the world answers in one step. -/
structure Answers where
  stopRequested : Bool := false
  xid : UInt32 := 1
  socketOpens : Bool := true
  /-- The datagrams a poll sees before its deadline. -/
  datagrams : List (List UInt8) := []
  now : Int := 0
  rearmed : Int := 0
  routeInstalls : Bool := true
  arpSocketOpens : Bool := true
  /-- The ARP frames that arrive while the probe is listened for. -/
  arpFrames : List (List UInt8) := []

/-- 169.254.13.37. -/
def kLeakLinkLocalProbeTargetBe : UInt32 :=
  (169 : UInt32) ||| ((254 : UInt32) <<< 8) ||| ((13 : UInt32) <<< 16) ||| ((37 : UInt32) <<< 24)

/-- The test `probeAndAwaitConflict` puts to a frame: another station claims the address. -/
def arpConflict (dutMac : Vector UInt8 6) (probedIpBe : UInt32) (received : List UInt8) : Bool :=
  let buf := received.take 42
  decide (42 ≤ buf.length) && decide ((buf.drop 14).take 4 = [0x00, 0x01, 0x08, 0x00]) &&
    decide (copy32 buf 28 = probedIpBe) && decide ((buf.drop 22).take 6 ≠ dutMac.toList)

namespace Client

variable (params : Params) (sender : Sender) (s : Client) (a : Answers)

def goto (point : Point) : Client := { s with point := point }

def note (evs : List Event) : Client := { s with log := s.log ++ evs }

/-- What a message leaves on the wire. -/
def sentEvents (spec : DhcpEmitSpec) : List Event :=
  (emitDhcpMessage params.flavor sender spec).toList.map (.sent spec.phase)

def emit (spec : DhcpEmitSpec) : Client := s.note (sentEvents params sender spec)

def gate (xidBe : UInt32) (expectedMsgType : UInt8) : ReplyGate :=
  ⟨params.behaviorFlavor, sender.dutMac, xidBe, expectedMsgType⟩

/-- BOUND: the lease is stored, and the router of the ACK installed. -/
def bind (ack : Reply) : Client :=
  let s := { s with committedLeaseBe := ack.yiaddrBe }.note [.bound ack]
  if ack.routerBe ≠ 0 ∧ a.routeInstalls then
    { s with installedRouterBe := ack.routerBe }.note [.routeInstalled ack.routerBe]
  else s

/-- The lease and the router are cleared, under the lock. -/
def clear : Client := { s with committedLeaseBe := 0, installedRouterBe := 0 }.note [.released]

def removeRoute (toRemove : UInt32) : Client :=
  if toRemove ≠ 0 then s.note [.routeRemoved toRemove] else s

/-- The lease and the router are given up. -/
def release : Client := s.clear.removeRoute s.installedRouterBe

/-- The attempts have ended without an ACK, or the next one starts. -/
def attemptStep (xidBe : UInt32) (attempt : UInt8) : Client :=
  if a.stopRequested ∨ ¬ attempt < params.retryCount then s.goto .parked
  else (s.emit params sender (emitDhcpDiscover xidBe)).goto (.offerWait xidBe attempt)

def offerWaitStep (xidBe : UInt32) (attempt : UInt8) : Client :=
  match pollForReply (gate params sender xidBe kDhcpOffer) a.datagrams with
  | none => s.goto (.attempt xidBe (attempt + 1))
  | some offer =>
    let s := s.note [.offered offer]
    if a.stopRequested then s.goto .parked
    else
      (s.emit params sender (emitDhcpRequest xidBe offer.yiaddrBe offer.serverIdBe)).goto
        (.ackWait xidBe attempt offer)

def ackWaitStep (xidBe : UInt32) (attempt : UInt8) : Client :=
  match pollForReply (gate params sender xidBe kDhcpAck) a.datagrams with
  | none => s.goto (.attempt xidBe (attempt + 1))
  | some ack => if a.stopRequested then s.goto .parked else (s.bind a ack).goto (.bound xidBe ack)

/-- The deliberate leak of a link-local probe. -/
def boundStep (xidBe : UInt32) (ack : Reply) : Client :=
  let s :=
    if params.behaviorFlavor = .LeakLinkLocalAfterBind ∧ a.stopRequested = false then
      s.note [.arpProbe kLeakLinkLocalProbeTargetBe]
    else s
  s.goto (.probe xidBe ack)

/-- The probe of the address: declined on a conflict, announced without one. -/
def probeStep (xidBe : UInt32) (ack : Reply) : Client :=
  if params.probes ∧ a.stopRequested = false then
    let s := if a.arpSocketOpens then s.note [.arpProbe ack.yiaddrBe] else s
    if a.arpSocketOpens ∧ a.arpFrames.any (arpConflict sender.dutMac ack.yiaddrBe) then
      (s.emit params sender (emitDhcpDecline xidBe ack.yiaddrBe ack.serverIdBe)).goto .restart
    else (s.note [.arpAnnounce ack.yiaddrBe]).goto (.arm xidBe ack)
  else s.goto (.arm xidBe ack)

def armStep (xidBe : UInt32) (ack : Reply) : Client :=
  if ack.leaseSeconds = 0 then s.goto .idle
  else
    let binding : Binding := ⟨params.behaviorFlavor, xidBe, s.committedLeaseBe⟩
    s.goto (.phase binding (binding.armed ack.serverIdBe ack.leaseSeconds a.now))

/-- A renewal that re-arms the machine. -/
def renewals (reply : Option (Reply × Int)) : List Event :=
  match reply with
  | some (r, _) => if r.msgType = kDhcpAck ∧ r.leaseSeconds ≠ 0 then [.renewed r] else []
  | none => []

def phaseStep (binding : Binding) (state : PhaseState) : Client :=
  if a.stopRequested then s.goto .done
  else
    let reply := (pollForReply (gate params sender binding.xidBe 0) a.datagrams).map (·, a.rearmed)
    let (next, messages) := state.turn binding a.now reply
    let s := s.note (messages.flatMap (sentEvents params sender))
    match next with
    | none => s.goto .restart
    | some state => (s.note (renewals reply)).goto (.phase binding state)

def step : Client :=
  match s.point with
  | .init =>
    if a.stopRequested ∨ a.socketOpens = false then s.goto .done
    else s.goto (.attempt (htonl a.xid) 0)
  | .attempt xidBe attempt => s.attemptStep params sender a xidBe attempt
  | .offerWait xidBe attempt => s.offerWaitStep params sender a xidBe attempt
  | .ackWait xidBe attempt _ => s.ackWaitStep params sender a xidBe attempt
  | .bound xidBe ack => s.boundStep params a xidBe ack
  | .probe xidBe ack => s.probeStep params sender a xidBe ack
  | .arm xidBe ack => s.armStep params a xidBe ack
  | .phase binding state => s.phaseStep params sender a binding state
  | .restart => s.clear.goto (.unroute s.installedRouterBe)
  | .unroute toRemove => (s.removeRoute toRemove).goto .init
  | .parked => if a.stopRequested then s.goto .done else s
  | .idle => if a.stopRequested then s.goto .done else s
  | .done => s

/-- A run of a fresh client. -/
def run (answers : List Answers) : Client := answers.foldl (fun s a => s.step params sender a) {}

end Client

end Tc8Harness.Dut
