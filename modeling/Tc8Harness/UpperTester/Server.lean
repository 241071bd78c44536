import Tc8Harness.Lib.TreeTable
import Tc8Harness.Testability.Server
import Tc8Harness.UpperTester.Protocol

/-!
# The Upper Tester server

`UpperTesterServer` of `src/upper_tester/ut_server.cpp`. A step is one iteration of one of its loops: a
request served, a datagram of the data listener, or a turn of a TCP worker. Every call of the socket
backend and the stack probe is an `Op`, and the environment answers it from a state of its own; it also
decides whether an acceptor gets another turn in while its slot is torn down. Opcodes registered by a
platform are handlers of their own that the table finds first. A step that ends the process has no result.

`log` is not in the source: it has the TCP sockets made, accepted and closed, and the ids given out and
taken back, in order.
-/

namespace Tc8Harness.UpperTester

open BigEndian Wire Someip
open Testability (Endpoint RecvEnd)

/-! ## The environment -/

structure TcpInfo where
  state : UInt8 := 0
  rtoUs : UInt32 := 0
  retransmits : UInt8 := 0
  unacked : UInt32 := 0
  deriving DecidableEq, Repr

/-- The operations of `SocketBackend` and `StackProbe` that the server uses, with what they answer. A
read answers at most as many bytes as were asked for; a send, at most as many as were given. -/
inductive Op : Type → Type where
  | createUdp : Op Int
  | createTcp : Op Int
  | setReuseAddr (fd : Int) : Op Unit
  | setBroadcast (fd : Int) : Op Unit
  | setRecvTimeoutMs (fd : Int) (ms : Int) : Op Unit
  | bindV4 (fd : Int) (addrBe : UInt32) (port : UInt16) : Op Bool
  | listen (fd : Int) (backlog : Nat) : Op Bool
  | accept (fd : Int) : Op Int
  | waitReadable (fd : Int) (timeoutUs : Nat) : Op Int
  | connectBoundedV4 (fd : Int) (dst : Endpoint) (timeoutMs : Nat) : Op Bool
  | shutdown (fd : Int) (how : Nat) : Op Bool
  | closeFd (fd : Int) : Op Unit
  | closeWithAbort (fd : Int) : Op Unit
  | send (fd : Int) (bytes : List UInt8) : Op { n : Int // n ≤ bytes.length }
  | recvEnd (fd : Int) (len : Nat) : Op ({ bytes : List UInt8 // bytes.length ≤ len } × RecvEnd)
  | sendToV4 (fd : Int) (bytes : List UInt8) (dst : Endpoint) : Op Int
  | queryTcpInfo (fd : Int) : Op (Option TcpInfo)
  | recvOob (fd : Int) (len : Nat) (timeoutMs : Nat) : Op { bytes : List UInt8 // bytes.length ≤ len }
  /-- The steady clock, in nanoseconds. -/
  | now : Op Int
  /-- Whether the acceptor is past its stop check when its slot is torn down. -/
  | acceptorTurn (listenFd : Int) : Op Bool

/-- Answers every operation from a state `σ`. -/
structure Env (σ : Type) where
  run : {α : Type} → Op α → σ → α × σ

/-- What an observer of the server sees of its TCP sockets and their ids. -/
inductive SocketEvent where
  | created (fd : Int)
  | accepted (fd : Int)
  | closed (fd : Int)
  | opened (sid : UInt8) (fd : Int)
  | tornDown (sid : UInt8)
  deriving DecidableEq, Repr

def Op.events : {α : Type} → Op α → α → List SocketEvent
  | _, .createTcp, fd => if 0 ≤ fd then [.created fd] else []
  | _, .accept _, fd => if 0 ≤ fd then [.accepted fd] else []
  | _, .closeFd fd, _ => [.closed fd]
  | _, .closeWithAbort fd, _ => [.closed fd]
  | _, _, _ => []

/-! ## The server's state -/

inductive TcpKind where
  | passive
  | active
  deriving DecidableEq, Repr

structure TcpSlot where
  kind : TcpKind
  listenFd : Int := -1
  acceptedFd : Int := -1
  localPort : UInt16
  remoteIpBe : UInt32 := 0
  remotePort : UInt16 := 0
  connectDone : Bool := false
  /-- The acceptor is still in its loop. -/
  accepting : Bool := false
  deriving DecidableEq, Repr

/-- The most an IPv4 packet can carry in a UDP datagram. -/
def kMaxUdpPayload : Nat := 65507

/-- What the data listener's socket delivers. -/
structure UdpDatagram where
  src : Endpoint
  origDstBe : UInt32
  payload : List UInt8
  size_le : payload.length ≤ kMaxUdpPayload

structure ReceiveRecord where
  srcIp : UInt32
  dstIp : UInt32
  srcPort : UInt16
  dstPort : UInt16
  payload : List UInt8
  size_le : payload.length ≤ 0xFFFF

structure Server (σ : Type) where
  ifaceIpBe : UInt32 := 0
  ifaceBcastBe : UInt32 := 0
  dataPort : UInt16
  utFd : Int
  capabilityBitmap : List UInt8 := []
  pingMaxOpcode : UInt8 := 0
  appFaultFlavor : UInt8 := 0
  tcpSlots : Std.TreeMap UInt8 TcpSlot := ∅
  nextTcpSocketId : UInt8 := 1
  /-- `last_receipt_`, once it is populated. -/
  lastReceipt : Option ReceiveRecord := none
  udpReceivePorts : List Int := []
  log : List SocketEvent := []
  net : σ

/-- `none`: the process is terminated. -/
abbrev UT (σ : Type) := StateT (Server σ) Option

section Handlers

variable {σ : Type} (env : Env σ)

def call {α : Type} (op : Op α) : UT σ α := fun s =>
  let (answer, net) := env.run op s.net
  some (answer, { s with net, log := s.log ++ op.events answer })

/-! ## TCP sessions -/

def kDutPassiveListenBacklog : Nat := 8
def kAcceptWaitUs : Nat := 200000
def kConnectTimeoutMs : Nat := 5000

/-- A socket bound to `addrBe` and `localPort`, closed again when it cannot be. -/
def boundSocket (addrBe : UInt32) (localPort : UInt16) : UT σ (Option Int) := do
  let fd ← call env .createTcp
  if fd < 0 then return none
  else
    call env (.setReuseAddr fd)
    if ← call env (.bindV4 fd addrBe localPort) then return some fd
    else
      call env (.closeFd fd)
      return none

/-- The socket a passive open is about: bound and listening. -/
def passiveSocket (localPort : UInt16) : UT σ (Option Int) := do
  match ← boundSocket env 0 localPort with
  | none => return none
  | some fd =>
    if ← call env (.listen fd kDutPassiveListenBacklog) then return some fd
    else
      call env (.closeFd fd)
      return none

def activeSocket (localPort : UInt16) : UT σ (Option Int) := do
  boundSocket env (← get).ifaceIpBe localPort

/-- `next_tcp_socket_id_++` with zero skipped, `emplace`, and the start of the worker. `emplace` leaves an
entry that is there: the worker is then started on a slot that nothing but the open owns, and which is
destroyed, with the thread still joinable, as the open returns. That is `std::terminate`. -/
def emplaceSlot (slot : TcpSlot) (fd : Int) : UT σ UInt8 := fun s =>
  let sid := s.nextTcpSocketId
  let next := if sid + 1 = 0 then 1 else sid + 1
  if s.tcpSlots.contains sid then none
  else some (sid, { s with
    tcpSlots := s.tcpSlots.insert sid slot, nextTcpSocketId := next, log := s.log ++ [.opened sid fd] })

def openTcpPassive (localPort : UInt16) : UT σ (Option UInt8) := do
  match ← passiveSocket env localPort with
  | none => return none
  | some fd =>
    some <$> emplaceSlot { kind := .passive, listenFd := fd, localPort, accepting := true } fd

def openTcpActive (localPort : UInt16) (remoteIpBe : UInt32) (remotePort : UInt16) :
    UT σ (Option UInt8) := do
  match ← activeSocket env localPort with
  | none => return none
  | some fd =>
    some <$> emplaceSlot { kind := .active, acceptedFd := fd, localPort, remoteIpBe, remotePort } fd

/-- One turn of `tcpAcceptorLoop`: what becomes of the slot. -/
def acceptorTurn (slot : TcpSlot) : UT σ TcpSlot := do
  let sr ← call env (.waitReadable slot.listenFd kAcceptWaitUs)
  if sr < 0 then return { slot with accepting := false }
  else if sr = 0 then return slot
  else
    let conn ← call env (.accept slot.listenFd)
    if conn < 0 then return slot
    else return { slot with acceptedFd := conn, accepting := false }

/-- The acceptor of a slot in the table. -/
def tcpAcceptorLoop (sid : UInt8) : UT σ Unit := do
  match (← get).tcpSlots[sid]? with
  | none => return
  | some slot =>
    if slot.accepting then
      let slot ← acceptorTurn env slot
      modify fun s => { s with tcpSlots := s.tcpSlots.insert sid slot }
    else return

def tcpConnectorLoop (sid : UInt8) : UT σ Unit := do
  match (← get).tcpSlots[sid]? with
  | none => return
  | some slot =>
    if slot.kind = .active ∧ !slot.connectDone then
      let _ ← call env (.connectBoundedV4 slot.acceptedFd ⟨slot.remoteIpBe, slot.remotePort⟩
        kConnectTimeoutMs)
      modify fun s => { s with tcpSlots := s.tcpSlots.insert sid { slot with connectDone := true } }
    else return

/-- The slot when its worker has been joined. -/
def joinWorker (slot : TcpSlot) : UT σ TcpSlot := do
  if slot.accepting then
    if ← call env (.acceptorTurn slot.listenFd) then acceptorTurn env slot else return slot
  else return slot

/-- Pokes a connector that is still waiting. -/
def unblockConnector (slot : TcpSlot) : UT σ Unit := do
  if slot.kind = .active ∧ 0 ≤ slot.acceptedFd ∧ !slot.connectDone then
    let _ ← call env (.shutdown slot.acceptedFd 2)
  else return

def closeAccepted (fd : Int) (abort : Bool) : UT σ Unit := do
  if 0 ≤ fd then
    if abort then call env (.closeWithAbort fd) else call env (.closeFd fd)
  else return

def closeListener (fd : Int) : UT σ Unit := do
  if 0 ≤ fd then call env (.closeFd fd) else return

/-- The slot leaves the table. -/
def takeSlot (sid : UInt8) : UT σ Unit := modify fun s =>
  { s with tcpSlots := s.tcpSlots.erase sid, log := s.log ++ [.tornDown sid] }

def tearDownSlot (sid : UInt8) (abort : Bool) : UT σ Bool := do
  match (← get).tcpSlots[sid]? with
  | none => return false
  | some slot =>
    takeSlot sid
    unblockConnector env slot
    let slot ← joinWorker env slot
    closeAccepted env slot.acceptedFd abort
    closeListener env slot.listenFd
    return true

def slotExists (sid : UInt8) : UT σ Bool := do return (← get).tcpSlots.contains sid

def slotConnFd (sid : UInt8) : UT σ Int := do
  return match (← get).tcpSlots[sid]? with
    | none => -1
    | some slot => slot.acceptedFd

/-! ## UDP -/

def kAppFaultAcceptDirectedBroadcast : UInt8 := 0x01
def kAppFaultAcceptMulticast : UInt8 := 0x02
def kAppFaultReportWrongSrcPort : UInt8 := 0x03
def kAppFaultReportWrongSrcIp : UInt8 := 0x04
def kAppFaultReportWrongPayload : UInt8 := 0x05
def kAppFaultMiscountPorts : UInt8 := 0x06
def kAppFaultReportWrongLength : UInt8 := 0x07
def kAppFaultReportNoReceipt : UInt8 := 0x08

def triggerSendUdp (srcPort : UInt16) (dstIpBe : UInt32) (dstPort : UInt16) (payload : List UInt8)
    (srcIpOverrideBe : UInt32) : UT σ Bool := do
  let fd ← call env .createUdp
  if fd < 0 then return false
  else
    call env (.setReuseAddr fd)
    call env (.setBroadcast fd)
    let ifaceIpBe := (← get).ifaceIpBe
    if ← call env (.bindV4 fd (if srcIpOverrideBe ≠ 0 then srcIpOverrideBe else ifaceIpBe) srcPort) then
      let rc ← call env (.sendToV4 fd payload ⟨dstIpBe, dstPort⟩)
      call env (.closeFd fd)
      return rc = payload.length
    else
      call env (.closeFd fd)
      return false

/-- The loop of `createUdpReceivePorts`: how many of the ports were made. -/
def bindUdpReceivePorts : Nat → UT σ Nat
  | 0 => return 0
  | count + 1 => do
    let fd ← call env .createUdp
    if fd < 0 then return 0
    else if ← call env (.bindV4 fd 0 0) then
      modify fun s => { s with udpReceivePorts := s.udpReceivePorts ++ [fd] }
      return (← bindUdpReceivePorts count) + 1
    else
      call env (.closeFd fd)
      return 0

def createUdpReceivePorts (count : UInt8) : UT σ UInt8 := do
  let actual := UInt8.ofNat (← bindUdpReceivePorts env count.toNat)
  return if (← get).appFaultFlavor = kAppFaultMiscountPorts then actual + 1 else actual

def lookupReceipt (listenPort : UInt16) (expectedDstIpBe : UInt32) : UT σ (Option ReceiveRecord) := do
  return (← get).lastReceipt.filter fun rec =>
    rec.dstPort == listenPort && (expectedDstIpBe == 0 || rec.dstIp == expectedDstIpBe)

def isMulticastV4 (addrBe : UInt32) : Bool :=
  224 ≤ (addrBe &&& 0xFF).toNat && (addrBe &&& 0xFF).toNat ≤ 239

/-- What the receive operation reports of a datagram, the armed flavor's corruption included. -/
def receiptOf (flavor : UInt8) (dataPort : UInt16) (d : UdpDatagram) : ReceiveRecord :=
  have hfits : d.payload.length ≤ 0xFFFF := d.size_le.trans (by decide)
  let rec' : ReceiveRecord :=
    ⟨d.src.addrBe, d.origDstBe, d.src.port, dataPort, d.payload, hfits⟩
  if flavor = kAppFaultReportWrongSrcPort then { rec' with srcPort := rec'.srcPort ^^^ 0xFFFF }
  else if flavor = kAppFaultReportWrongSrcIp then { rec' with srcIp := rec'.srcIp ^^^ 0xFF }
  else if flavor = kAppFaultReportWrongPayload then
    { rec' with payload := d.payload.modify 0 (· ^^^ 0xFF), size_le := by simpa using hfits }
  else if flavor = kAppFaultReportWrongLength then
    { rec' with payload := d.payload ++ [0],
                size_le := by
                  have hsize := d.size_le
                  rw [List.length_append, List.length_singleton]
                  unfold kMaxUdpPayload at hsize
                  omega }
  else rec'

/-- One turn of `dataListenerLoop`. -/
def dataListenerLoop (d : UdpDatagram) : UT σ Unit := modify fun s =>
  if s.appFaultFlavor ≠ kAppFaultAcceptDirectedBroadcast ∧ s.ifaceBcastBe ≠ 0 ∧
      d.origDstBe = s.ifaceBcastBe then s
  else if s.appFaultFlavor ≠ kAppFaultAcceptMulticast ∧ isMulticastV4 d.origDstBe then s
  else if s.appFaultFlavor = kAppFaultReportNoReceipt then s
  else { s with lastReceipt := some (receiptOf s.appFaultFlavor s.dataPort d) }

/-! ## Opcode handlers

A handler takes the parameters of a request and answers with a status and a body. -/

/-- `readU16`. -/
abbrev readU16 (p : List UInt8) (off : Nat) : UInt16 := readBe16 p off

/-- The four bytes of an address as they stand on the wire. -/
abbrev ipFromWire (p : List UInt8) (off : Nat) : UInt32 := copy32 p off

abbrev Reply := UInt8 × List UInt8

def handleGetReceivedUdp (p : List UInt8) : UT σ Reply := do
  if p.length < 2 + 4 then return (kStatusMalformed, [])
  else
    match ← lookupReceipt (readU16 p 0) (ipFromWire p 2) with
    | some rec =>
      let plen := UInt16.ofNat (if 0xFFFF < rec.payload.length then 0xFFFF else rec.payload.length)
      return (kStatusOk, [0x01] ++ (bytes32 rec.srcIp ++ (putBe16 rec.srcPort ++ (putBe16 plen ++
        rec.payload.take kMaxPayload))))
    | none => return (kStatusOk, [0x00])

def handleTriggerSendUdp (p : List UInt8) : UT σ Reply := do
  if p.length < 10 then return (kStatusMalformed, [])
  else
    let payloadLen := (readU16 p 8).toNat
    let legacy := 10 + payloadLen
    if p.length = legacy ∨ p.length = legacy + 4 then
      let srcOverrideBe := if p.length = legacy then 0 else ipFromWire p (10 + payloadLen)
      let ok ← triggerSendUdp env (readU16 p 0) (ipFromWire p 2) (readU16 p 6)
        ((p.drop 10).take payloadLen) srcOverrideBe
      return (if ok then kStatusOk else kStatusSendFailed, [])
    else return (kStatusMalformed, [])

def handleOpenTcpSocket (p : List UInt8) : UT σ Reply := do
  if p.length < 3 then return (kStatusMalformed, [])
  else
    let localPort := readU16 p 1
    if p.getD 0 0 = kSocketTypePassive then
      match ← openTcpPassive env localPort with
      | none => return (kStatusBindFailed, [])
      | some sid => return (kStatusOk, [sid])
    else if p.getD 0 0 = kSocketTypeActive then
      if p.length < 3 + 4 + 2 then return (kStatusMalformed, [])
      else
        match ← openTcpActive env localPort (ipFromWire p 3) (readU16 p 7) with
        | none => return (kStatusConnectFailed, [])
        | some sid => return (kStatusOk, [sid])
    else return (kStatusMalformed, [])

/-- Close and Abort. -/
def tearDown (abort : Bool) (p : List UInt8) : UT σ Reply := do
  if p.length < 1 then return (kStatusMalformed, [])
  else
    let ok ← tearDownSlot env (p.getD 0 0) abort
    return (if ok then kStatusOk else kStatusUnknownSocket, [])

def handleCloseTcpSocket (p : List UInt8) : UT σ Reply := tearDown env false p

def handleAbortTcpSocket (p : List UInt8) : UT σ Reply := tearDown env true p

def handleQueryTcpEstablished (p : List UInt8) : UT σ Reply := do
  if p.length < 1 then return (kStatusMalformed, [])
  else if ← slotExists (p.getD 0 0) then
    let fd ← slotConnFd (p.getD 0 0)
    if 0 ≤ fd then
      let info ← call env (.queryTcpInfo fd)
      let established := info.any fun i => i.state == kTcpStateEstablished
      return (kStatusOk, [if established then 1 else 0])
    else return (kStatusOk, [0])
  else return (kStatusUnknownSocket, [])

/-- The write loop of the two send handlers. A send that gets nothing out ends it. -/
def sendAll (fd : Int) : List UInt8 → UT σ Bool
  | [] => return true
  | byte :: bytes => do
    let rc ← call env (.send fd (byte :: bytes))
    if _h : 0 < rc.1 then sendAll fd ((byte :: bytes).drop rc.1.toNat) else return false
termination_by bytes => bytes.length
decreasing_by
  simp only [List.length_drop, List.length_cons]
  omega

/-- The tail the two send handlers share. -/
def sendOn (sid : UInt8) (bytes : List UInt8) : UT σ Reply := do
  if ← slotExists sid then
    let fd ← slotConnFd sid
    if 0 ≤ fd then
      let ok ← sendAll env fd bytes
      return (if ok then kStatusOk else kStatusSendFailed, [])
    else return (kStatusSendFailed, [])
  else return (kStatusUnknownSocket, [])

def handleSendTcpData (p : List UInt8) : UT σ Reply := do
  if p.length < 3 then return (kStatusMalformed, [])
  else
    let payloadLen := (readU16 p 1).toNat
    if p.length < 3 + payloadLen then return (kStatusMalformed, [])
    else sendOn env (p.getD 0 0) ((p.drop 3).take payloadLen)

def handleSendTcpDataPattern (p : List UInt8) : UT σ Reply := do
  if p.length < 4 then return (kStatusMalformed, [])
  else sendOn env (p.getD 0 0) (List.replicate (readU16 p 2).toNat (p.getD 1 0))

def recvEndByte : RecvEnd → UInt8
  | .kReset => kRecvEndReset
  | .kPeerClosed => kRecvEndPeerClosed
  | .kNone => kRecvEndNone

/-- The read loop: up to `want` more bytes before the deadline, and how the stream ended. -/
def receiveUntil (fd : Int) (deadline : Int) (want : Nat) : UT σ (List UInt8 × UInt8) := do
  if want = 0 then return ([], kRecvEndNone)
  else
    let now ← call env .now
    if deadline ≤ now then return ([], kRecvEndNone)
    else
      call env (.setRecvTimeoutMs fd ((deadline - now) / 1000000))
      let (bytes, stop) ← call env (.recvEnd fd want)
      if _h : 0 < bytes.1.length then
        let (more, stop) ← receiveUntil fd deadline (want - bytes.1.length)
        return (bytes.1 ++ more, stop)
      else return ([], recvEndByte stop)
termination_by want
decreasing_by omega

def handleReceiveTcpData (p : List UInt8) : UT σ Reply := do
  if p.length < 5 then return (kStatusMalformed, [])
  else if ← slotExists (p.getD 0 0) then
    let fd ← slotConnFd (p.getD 0 0)
    let expectedLen := (readU16 p 1).toNat
    if 0 ≤ fd ∧ expectedLen ≠ 0 then
      let now ← call env .now
      let (bytes, stop) ← receiveUntil env fd (now + (readU16 p 3).toNat * 1000000) expectedLen
      return (kStatusOk, putBe16 (UInt16.ofNat bytes.length) ++ (bytes ++ [stop]))
    else return (kStatusOk, putBe16 0 ++ ([] ++ [kRecvEndNone]))
  else return (kStatusUnknownSocket, [])

def handleShutdownTcpSocketWr (p : List UInt8) : UT σ Reply := do
  if p.length < 1 then return (kStatusMalformed, [])
  else
    let fd ← slotConnFd (p.getD 0 0)
    if 0 ≤ fd then
      let ok ← call env (.shutdown fd 1)
      return (if ok then kStatusOk else kStatusUnknownSocket, [])
    else return (kStatusUnknownSocket, [])

def handleReceiveTcpDataOob (p : List UInt8) : UT σ Reply := do
  if p.length < 5 then return (kStatusMalformed, [])
  else if ← slotExists (p.getD 0 0) then
    let fd ← slotConnFd (p.getD 0 0)
    let expectedLen := (readU16 p 1).toNat
    if 0 ≤ fd ∧ expectedLen ≠ 0 then
      let bytes ← call env (.recvOob fd expectedLen (readU16 p 3).toNat)
      return (kStatusOk, putBe16 (UInt16.ofNat bytes.1.length) ++ bytes.1)
    else return (kStatusOk, putBe16 0)
  else return (kStatusUnknownSocket, [])

def handleQueryTcpInfo (p : List UInt8) : UT σ Reply := do
  if p.length < 1 then return (kStatusMalformed, [])
  else if ← slotExists (p.getD 0 0) then
    let fd ← slotConnFd (p.getD 0 0)
    if fd < 0 then return (kStatusUnknownSocket, [])
    else
      match ← call env (.queryTcpInfo fd) with
      | none => return (kStatusUnknownSocket, [])
      | some info =>
        return (kStatusOk, [info.state] ++ (putBe32 info.rtoUs ++ ([info.retransmits] ++
          putBe32 info.unacked)))
  else return (kStatusUnknownSocket, [])

def handleCreateUdpReceivePorts (p : List UInt8) : UT σ Reply := do
  if p.length < 1 then return (kStatusMalformed, [])
  else return (kStatusOk, [← createUdpReceivePorts env (p.getD 0 0)])

def handlePing (_ : List UInt8) : UT σ Reply := do
  return (kStatusOk, [(← get).pingMaxOpcode])

def handleQueryCapabilities (_ : List UInt8) : UT σ Reply := do
  let bitmap := (← get).capabilityBitmap
  return (kStatusOk, [UInt8.ofNat bitmap.length] ++ bitmap)

/-! ## The request loop -/

abbrev Handler (σ : Type) := List UInt8 → UT σ Reply

/-- `installBuiltins`. -/
def builtin (opcode : UInt8) : Option (Handler σ) :=
  if opcode = opGetReceivedUdp then some handleGetReceivedUdp
  else if opcode = opTriggerSendUdp then some (handleTriggerSendUdp env)
  else if opcode = opOpenTcpSocket then some (handleOpenTcpSocket env)
  else if opcode = opCloseTcpSocket then some (handleCloseTcpSocket env)
  else if opcode = opQueryTcpEstablished then some (handleQueryTcpEstablished env)
  else if opcode = opSendTcpData then some (handleSendTcpData env)
  else if opcode = opReceiveTcpData then some (handleReceiveTcpData env)
  else if opcode = opShutdownTcpSocketWr then some (handleShutdownTcpSocketWr env)
  else if opcode = opAbortTcpSocket then some (handleAbortTcpSocket env)
  else if opcode = opSendTcpDataPattern then some (handleSendTcpDataPattern env)
  else if opcode = opReceiveTcpDataOob then some (handleReceiveTcpDataOob env)
  else if opcode = opQueryTcpInfo then some (handleQueryTcpInfo env)
  else if opcode = opCreateUdpReceivePorts then some (handleCreateUdpReceivePorts env)
  else if opcode = opPing then some handlePing
  else if opcode = opQueryCapabilities then some handleQueryCapabilities
  else none

/-- `registered` has the opcodes of the platform; a registration replaces what was there. -/
def dispatch (registered : UInt8 → Option (Handler σ)) (opcode : UInt8) (params : List UInt8) :
    UT σ Reply :=
  match (registered opcode).or (builtin env opcode) with
  | none => return (kStatusUnknownOpcode, [])
  | some handler => handler params

def sendResponse (peer : Endpoint) (responseOpcode reqId : UInt8) (reply : Reply) : UT σ Unit := do
  let _ ← call env (.sendToV4 (← get).utFd ([responseOpcode, reqId, reply.1] ++ reply.2) peer)

def kUtRequestBufferLen : Nat := 2048

/-- One turn of `utServerLoop` with a datagram received. A response is never answered. -/
def utServerLoop (registered : UInt8 → Option (Handler σ)) (datagram : List UInt8) (peer : Endpoint) :
    UT σ Unit := do
  let buf := datagram.take kUtRequestBufferLen
  if datagram.length < 2 then return
  else if buf.getD 0 0 &&& kResponseBit ≠ 0 then return
  else
    let reply ← dispatch env registered (buf.getD 0 0) (buf.drop 2)
    sendResponse env peer (buf.getD 0 0 ||| kResponseBit) (buf.getD 1 0) reply

end Handlers

end Tc8Harness.UpperTester
