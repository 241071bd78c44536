import Tc8Harness.UpperTester.Server

/-!
# The opcodes of the platforms

`PosixUtExtensions::registerOn` of `dut/dut_service/posix_ut_extensions.cpp` with the flavor opcode of
`dut_main.cpp`, `registerLwipUtExtensions` of `dut/lwip_dut/lwip_ut_extensions.cpp`, and
`applyArpStaticEntry`, which both use. What a handler asks of the autoconfiguration, the DHCP clients, the
neighbour tables and the fault hooks is an `ExtOp`, answered from the same state as the sockets.
-/

namespace Tc8Harness.UpperTester

open BigEndian Wire Someip
open Testability (Endpoint)

/-! ## What the handlers start -/

/-- The timing knobs of the autoconfiguration, in milliseconds. -/
structure LinklocalTimings where
  dhcpTimeoutMs : UInt16
  probeWaitMs : UInt16
  probeMinMs : UInt16
  probeMaxMs : UInt16
  announceWaitMs : UInt16
  announceIntervalMs : UInt16
  rateLimitIntervalMs : UInt16
  deriving DecidableEq, Repr

/-- `LinklocalAutoconf::Params`. -/
structure LinklocalParams extends LinklocalTimings where
  flavor : UInt8 := 0
  deriving DecidableEq, Repr

inductive DhcpFlavorDomain where
  | None
  | Message
  | Arp
  | Behavior
  | ChaddrOverride
  deriving DecidableEq, Repr

/-- `dhcpv4_flavors.def`. -/
def dhcpv4Flavors : List (UInt8 × DhcpFlavorDomain) :=
  [(0x01, .Behavior), (0x02, .Message), (0x03, .Message), (0x04, .Message), (0x05, .Message),
   (0x06, .Message), (0x07, .Message), (0x08, .Message), (0x09, .Message), (0x0A, .Message),
   (0x0B, .Message), (0x0C, .Message), (0x0D, .Message), (0x0E, .Message), (0x0F, .Message),
   (0x10, .Message), (0x11, .Message), (0x12, .Arp), (0x13, .Message), (0x14, .Arp),
   (0x15, .Message), (0x16, .Message), (0x17, .Message), (0x18, .Message), (0x19, .Message),
   (0x1A, .Message), (0x1B, .Behavior), (0x1C, .Behavior), (0x1D, .Behavior), (0x1E, .Behavior),
   (0x1F, .Behavior), (0x20, .Behavior), (0x21, .Behavior), (0x22, .Behavior),
   (0x23, .ChaddrOverride)]

def dhcpFlavorDomain (fb : UInt8) : DhcpFlavorDomain := (dhcpv4Flavors.lookup fb).getD .None

/-- What a DHCP client is told to wait and how often to try. -/
structure DhcpTimings where
  offerWaitMs : UInt16 := 2000
  ackWaitMs : UInt16 := 2000
  retryCount : UInt8 := 1
  retryIntervalMs : UInt16 := 1000
  nakToDiscoverMinMs : UInt16 := 0
  nakToDiscoverMaxMs : UInt16 := 0
  arpProbeListenMs : UInt16 := 0
  declineToDiscoverMinMs : UInt16 := 0
  declineToDiscoverMaxMs : UInt16 := 0
  retxFirstMs : UInt16 := 0
  retxCapMs : UInt16 := 0
  retxJitterMs : UInt16 := 0
  deriving DecidableEq, Repr

/-- `Dhcpv4Client::Params`. -/
structure DhcpParams extends DhcpTimings where
  flavor : UInt8 := 0
  arpFlavor : UInt8 := 0
  behaviorFlavor : UInt8 := 0
  chaddrOverride : Option (List UInt8) := none
  deriving DecidableEq, Repr

inductive OpStatus where
  | Ok
  | UnknownInterface
  | InvalidArgument
  | NotPermitted
  | Unsupported
  | Failed
  deriving DecidableEq, Repr

def OpStatus.toUInt8 : OpStatus → UInt8
  | .Ok => 0
  | .UnknownInterface => 1
  | .InvalidArgument => 2
  | .NotPermitted => 3
  | .Unsupported => 4
  | .Failed => 5

inductive ExtOp : Type → Type where
  | startLinklocal (params : LinklocalParams) : ExtOp Unit
  | currentAddressBe : ExtOp UInt32
  | abortLinklocal : ExtOp Unit
  | startDhcp (iface : Nat) (params : DhcpParams) : ExtOp Unit
  | currentLeaseBe (iface : Nat) : ExtOp UInt32
  | abortDhcp (iface : Nat) : ExtOp Unit
  | addStaticNeighbor (ifname : String) (addrBe : UInt32) (mac : List UInt8) : ExtOp OpStatus
  | removeNeighbor (ifname : String) (addrBe : UInt32) : ExtOp OpStatus
  | etharpCleanupNetif : ExtOp Unit
  | etharpTmr : ExtOp Unit
  | setEgressFaultFlavor (flavor : UInt8) : ExtOp Unit
  | setIngressFaultFlavor (flavor : UInt8) : ExtOp Unit
  | setEtsFaultFlavor (flavor : UInt8) : ExtOp Unit

structure ExtEnv (σ : Type) where
  run : {α : Type} → ExtOp α → σ → α × σ

/-- A device under test. The POSIX one has a DHCP client on each interface, here the MAC it is bound
to. -/
inductive Platform where
  | posix (ifname : String) (clientMacs : List (List UInt8))
  | lwip (ifname : String)

section Extensions

variable {σ : Type} (ext : ExtEnv σ)

def callExt {α : Type} (op : ExtOp α) : UT σ α := fun s =>
  let (answer, net) := ext.run op s.net
  some (answer, { s with net })

/-! ## Static neighbours -/

/-- The status of a neighbour operation and, where it was not performed, why. -/
def opStatusReply (op : OpStatus) : Reply :=
  if op = .Ok then (kStatusOk, []) else (kStatusNotPerformed, [op.toUInt8])

/-- `none` where the request is for no static entry. -/
def applyArpStaticEntry (ifname : String) (p : List UInt8) : UT σ (Option Reply) := do
  if p.length < 1 then return none
  else if p.getD 0 0 = kArpConditionAddStatic then
    if p.length < 3 + 4 + 6 then return some (kStatusMalformed, [])
    else return some (opStatusReply
      (← callExt ext (.addStaticNeighbor ifname (copy32 p 3) ((p.drop 7).take 6))))
  else if p.getD 0 0 = kArpConditionRemoveStatic then
    if p.length < 3 + 4 then return some (kStatusMalformed, [])
    else return some (opStatusReply (← callExt ext (.removeNeighbor ifname (copy32 p 3))))
  else return none

/-! ## The POSIX platform -/

/-- The seven timing knobs. -/
def readLinklocalTimings (p : List UInt8) : LinklocalTimings :=
  { dhcpTimeoutMs := readU16 p 0, probeWaitMs := readU16 p 2, probeMinMs := readU16 p 4,
    probeMaxMs := readU16 p 6, announceWaitMs := readU16 p 8, announceIntervalMs := readU16 p 10,
    rateLimitIntervalMs := readU16 p 12 }

def handleStartLLAutoconf (p : List UInt8) : UT σ Reply := do
  if p.length < 14 then return (kStatusMalformed, [])
  else
    callExt ext (.startLinklocal { readLinklocalTimings p with })
    return (kStatusOk, [])

def handleQueryLLAddress (_ : List UInt8) : UT σ Reply := do
  return (kStatusOk, bytes32 (← callExt ext .currentAddressBe))

def handleAbortLLAutoconf (_ : List UInt8) : UT σ Reply := do
  callExt ext .abortLinklocal
  return (kStatusOk, [])

def handleStartLLAutoconfBuggy (p : List UInt8) : UT σ Reply := do
  if p.length < 15 then return (kStatusMalformed, [])
  else
    callExt ext (.startLinklocal { readLinklocalTimings p with flavor := p.getD 14 0 })
    return (kStatusOk, [])

/-- The parameters grew over time: a shorter request leaves the later ones at their defaults. -/
def readDhcpTimings (p : List UInt8) : DhcpTimings :=
  let params : DhcpTimings :=
    { offerWaitMs := readU16 p 0, ackWaitMs := readU16 p 2, retryCount := p.getD 4 0,
      retryIntervalMs := readU16 p 5 }
  let params := if 11 ≤ p.length then
    { params with nakToDiscoverMinMs := readU16 p 7, nakToDiscoverMaxMs := readU16 p 9 } else params
  let params := if 13 ≤ p.length then { params with arpProbeListenMs := readU16 p 11 } else params
  let params := if 17 ≤ p.length then
    { params with declineToDiscoverMinMs := readU16 p 13, declineToDiscoverMaxMs := readU16 p 15 }
    else params
  if 23 ≤ p.length then
    { params with retxFirstMs := readU16 p 17, retxCapMs := readU16 p 19, retxJitterMs := readU16 p 21 }
  else params

/-- The flavor byte arms one selector, by its domain. -/
def DhcpParams.routeFlavor (params : DhcpParams) (clientMacs : List (List UInt8)) (iface : Nat)
    (fb : UInt8) : DhcpParams :=
  match dhcpFlavorDomain fb with
  | .Arp => { params with arpFlavor := fb }
  | .Behavior => { params with behaviorFlavor := fb }
  | .Message => { params with flavor := fb }
  | .ChaddrOverride => if 0 < iface then { params with chaddrOverride := clientMacs.head? } else params
  | .None => params

def handleStartDhcpClient (clientMacs : List (List UInt8)) (p : List UInt8) : UT σ Reply := do
  if p.length < 7 then return (kStatusMalformed, [])
  else
    let iface := if 24 ≤ p.length then (p.getD 23 0).toNat else 0
    let params : DhcpParams := { readDhcpTimings p with }
    let params := if 25 ≤ p.length then params.routeFlavor clientMacs iface (p.getD 24 0) else params
    if clientMacs.length ≤ iface then return (kStatusMalformed, [])
    else
      callExt ext (.startDhcp iface params)
      return (kStatusOk, [])

def handleQueryDhcpLease (clientMacs : List (List UInt8)) (_ : List UInt8) : UT σ Reply := do
  if clientMacs.isEmpty then return (kStatusOk, bytes32 0)
  else return (kStatusOk, bytes32 (← callExt ext (.currentLeaseBe 0)))

/-- The clients from `iface` on. -/
def abortDhcpClients (iface : Nat) : List (List UInt8) → UT σ Unit
  | [] => return
  | _ :: macs => do
    callExt ext (.abortDhcp iface)
    abortDhcpClients (iface + 1) macs

def handleAbortDhcpClient (clientMacs : List (List UInt8)) (_ : List UInt8) : UT σ Reply := do
  abortDhcpClients ext 0 clientMacs
  return (kStatusOk, [])

def handleConditionArpCachePosix (ifname : String) (p : List UInt8) : UT σ Reply := do
  return (← applyArpStaticEntry ext ifname p).getD (kStatusMalformed, [])

/-! ## The lwIP platform -/

/-- So many ticks of the ARP timer. -/
def ageArpTable : Nat → UT σ Unit
  | 0 => return
  | seconds + 1 => do
    callExt ext .etharpTmr
    ageArpTable seconds

def handleConditionArpCacheLwip (ifname : String) (p : List UInt8) : UT σ Reply := do
  match ← applyArpStaticEntry ext ifname p with
  | some reply => return reply
  | none =>
    if p.length < 1 + 2 then return (kStatusMalformed, [])
    else if p.getD 0 0 = kArpConditionFlushAll then
      callExt ext .etharpCleanupNetif
      return (kStatusOk, [])
    else if p.getD 0 0 = kArpConditionAgeBySeconds then
      ageArpTable ext (readU16 p 1).toNat
      return (kStatusOk, [])
    else return (kStatusMalformed, [])

def kEgressFaultMax : UInt8 := 0x1B
def kIngressFaultMax : UInt8 := 0x16
def kAppFaultMax : UInt8 := 0x08
def kEtsFaultMax : UInt8 := 0x04

/-- The four flavor opcodes: a flavor beyond the last one is malformed. -/
def handleSetFlavor (max : UInt8) (arm : UInt8 → UT σ Unit) (p : List UInt8) : UT σ Reply := do
  if p.length < 1 ∨ max < p.getD 0 0 then return (kStatusMalformed, [])
  else
    arm (p.getD 0 0)
    return (kStatusOk, [])

def handleSetEgressFlavor (p : List UInt8) : UT σ Reply :=
  handleSetFlavor kEgressFaultMax (fun flavor => callExt ext (.setEgressFaultFlavor flavor)) p

def handleSetIngressFlavor (p : List UInt8) : UT σ Reply :=
  handleSetFlavor kIngressFaultMax (fun flavor => callExt ext (.setIngressFaultFlavor flavor)) p

def setAppFaultFlavor (flavor : UInt8) : UT σ Unit := modify fun s => { s with appFaultFlavor := flavor }

def handleSetAppFlavor (p : List UInt8) : UT σ Reply := handleSetFlavor kAppFaultMax setAppFaultFlavor p

def handleSetEtsFlavor (p : List UInt8) : UT σ Reply :=
  handleSetFlavor kEtsFaultMax (fun flavor => callExt ext (.setEtsFaultFlavor flavor)) p

/-! ## Registration -/

/-- The opcodes a platform registers. -/
def Platform.registered (platform : Platform) (opcode : UInt8) : Option (Handler σ) :=
  match platform with
  | .posix ifname clientMacs =>
    if opcode = opStartLLAutoconf then some (handleStartLLAutoconf ext)
    else if opcode = opQueryLLAddress then some (handleQueryLLAddress ext)
    else if opcode = opAbortLLAutoconf then some (handleAbortLLAutoconf ext)
    else if opcode = opStartLLAutoconfBuggy then some (handleStartLLAutoconfBuggy ext)
    else if opcode = opStartDhcpClient then some (handleStartDhcpClient ext clientMacs)
    else if opcode = opQueryDhcpLease then some (handleQueryDhcpLease ext clientMacs)
    else if opcode = opAbortDhcpClient then some (handleAbortDhcpClient ext clientMacs)
    else if opcode = opConditionArpCache then some (handleConditionArpCachePosix ext ifname)
    else if opcode = opSetEtsFlavor then some (handleSetEtsFlavor ext)
    else none
  | .lwip ifname =>
    if opcode = opConditionArpCache then some (handleConditionArpCacheLwip ext ifname)
    else if opcode = opSetEgressFlavor then some (handleSetEgressFlavor ext)
    else if opcode = opSetIngressFlavor then some (handleSetIngressFlavor ext)
    else if opcode = opSetAppFlavor then some handleSetAppFlavor
    else none

end Extensions

end Tc8Harness.UpperTester
