import Tc8Harness.Testability.Reactor
import Tc8Harness.Testability.Wire
import Tc8Harness.Wire.Checksum

/-!
# The testability server

`ProtocolServer` of `src/testability/protocol_server.cpp`, without OEM handlers and modules. A step is
one handler run to completion on the loop: the control socket, a worker, a pending connect or a report
timer. Which registered watch or timer fires next is the environment's choice, and so is what the
socket backend answers during the step (`Answers`); the calls made of the backend are kept in `log`,
in order.

Every request handler begins with a parser of its parameters (`parse…`), as the source's begins with
its reads; the parser is the whole of the handler's E_INV answers.
-/

namespace Tc8Harness.Testability

open BigEndian Wire Someip

/-! ## The backend -/

inductive RecvEnd where
  | kNone
  | kPeerClosed
  | kReset
  deriving DecidableEq, Repr

inductive ConnectProgress where
  | kInProgress
  | kEstablished
  | kRefused
  | kReset
  | kTimedOut
  | kAlreadyConnected
  | kFailed
  deriving DecidableEq, Repr

structure Endpoint where
  addrBe : UInt32 := 0
  port : UInt16 := 0
  deriving DecidableEq, Repr

/-- What the backend answers during one step. A handler makes each of these calls at most once, the
drain's `recv` apart, whose answers are a list. A receive that fails is `none`. -/
structure Answers where
  now : Int := 0
  create : Int := -1
  bindV4 : Bool := true
  connectStartV4 : ConnectProgress := .kInProgress
  connectProgress : ConnectProgress := .kInProgress
  listen : Bool := true
  accept : Int := -1
  client : Endpoint := {}
  recv : List Int := []
  recvEnd : Option (List UInt8) := none
  stop : RecvEnd := .kNone
  recvFromV4 : Option (List UInt8 × Endpoint) := none
  send : Bool := true
  shutdown : Bool := true
  rid : UInt8 := kRidEOk
  deriving DecidableEq, Repr

/-- The calls made of the backend. `socket` in a send or an Event is the socket the call is made for;
it is not an argument of the call. Both kinds of message go out on the control socket as
`buildMessage header dat`. -/
inductive Action where
  | createUdp (fd : Int)
  | createTcp (fd : Int)
  | setReuseAddr (fd : Int)
  | bindV4 (fd : Int) (addrBe : UInt32) (port : UInt16)
  | setNonBlocking (fd : Int) (on : Bool)
  | closeFd (fd : Int)
  | closeWithAbort (fd : Int)
  | connectStartV4 (fd : Int) (dst : Endpoint)
  | connectProgress (fd : Int)
  | listen (fd : Int) (backlog : UInt16)
  | accept (fd conn : Int)
  | recv (fd : Int)
  | recvEnd (fd : Int) (want : Nat)
  | recvFromV4 (fd : Int)
  | send (socket : UInt16) (fd : Int) (payload : List UInt8) (urgent : Bool)
  | sendToV4 (fd : Int) (payload : List UInt8) (dst : Endpoint)
  | shutdown (fd : Int) (how : Nat)
  | configureOption (fd : Int) (paramId : UInt16) (val : List UInt8)
  | sendIcmpEcho (ifname : List UInt8) (destBe : UInt32) (data : List UInt8)
  | sendIcmpv6Echo (ifname addr data : List UInt8)
  | setInterfaceUp (ifname : List UInt8) (up : Bool)
  | setStaticAddressV4 (ifname : List UInt8) (addrBe : UInt32) (cidr : UInt8)
  | setStaticRouteV4 (ifname : List UInt8) (subnetBe : UInt32) (cidr : UInt8) (gatewayBe : UInt32)
  | setStaticAddressV6 (ifname addr : List UInt8) (cidr : UInt8)
  | setStaticRouteV6 (ifname subnet : List UInt8) (cidr : UInt8) (gateway : List UInt8)
  | response (header : Header) (dat : List UInt8) (peer : Endpoint)
  | event (socket : UInt16) (header : Header) (dat : List UInt8) (peer : Endpoint)
  deriving DecidableEq, Repr

/-! ## State -/

/-- The handlers the server registers with its reactor. -/
inductive Handler where
  | onControlReadable
  | onWorkerReadable (socketId : UInt16)
  | onConnectWritable (socketId : UInt16)
  | reportFailedConnect (socketId : UInt16)
  deriving DecidableEq, Repr

inductive WatchKind where
  | kAccept
  | kRecvTcp
  | kRecvUdp
  deriving DecidableEq, Repr

structure EventWatch where
  id : Nat := kNoWatch
  fd : Int := -1
  serviceId : UInt16 := 0
  peer : Endpoint := {}
  kind : WatchKind := .kAccept
  listenSocketId : UInt16 := 0
  maxCon : UInt16 := 0
  accepted : UInt16 := 0
  maxFwd : UInt16 := 0
  maxLen : UInt16 := 0
  limitless : Bool := false
  consumed : UInt32 := 0
  deriving DecidableEq, Repr

/-- How much `recvForwardTcpOne` asks for. -/
def EventWatch.want (w : EventWatch) : Nat :=
  if w.limitless then 2048 else min 2048 (w.maxLen.toUInt32 - w.consumed).toNat

structure QueuedSend where
  payload : List UInt8
  urgent : Bool := false
  deriving DecidableEq, Repr

structure PendingConnect where
  fd : Int := -1
  serviceId : UInt16 := 0
  peer : Endpoint := {}
  watch : Nat := kNoWatch
  report : Nat := kNoTimer
  ended : ConnectProgress := .kInProgress
  sends : List QueuedSend := []
  queuedBytes : Nat := 0
  forward : Option EventWatch := none
  deriving DecidableEq, Repr

/-- `registered` counts the calls of `registerSocket`. -/
structure ProtocolServer where
  fd : Int
  controlWatch : Nat
  reactor : Reactor Handler
  eventWatches : Std.TreeMap UInt16 EventWatch := ∅
  pendingConnects : Std.TreeMap UInt16 PendingConnect := ∅
  sockets : Std.TreeMap UInt16 Int := ∅
  nextSocketId : UInt16 := 1
  registered : Nat := 0
  log : List Action := []

namespace ProtocolServer

/-- The server after `setupOnLoop`, with the control socket `fd`. -/
def start (fd : Int) : ProtocolServer :=
  let added := ({} : Reactor Handler).addWatch fd .onControlReadable
  { fd := fd, controlWatch := added.2, reactor := added.1, log := [.setNonBlocking fd true] }

variable (s : ProtocolServer) (a : Answers)

def act (action : Action) : ProtocolServer := { s with log := s.log ++ [action] }

/-! ## Sockets, workers and pending connects -/

def registerSocket (fd : Int) : ProtocolServer × UInt16 :=
  ({ s with
      sockets := s.sockets.insert s.nextSocketId fd
      nextSocketId := s.nextSocketId + 1
      registered := s.registered + 1 },
    s.nextSocketId)

def lookupSocket (id : UInt16) : Option Int := s.sockets[id]?

def stopWorker (socketId : UInt16) : ProtocolServer :=
  match s.eventWatches[socketId]? with
  | none => s
  | some w =>
    { s with
      reactor := s.reactor.removeWatch w.id
      eventWatches := s.eventWatches.erase socketId }

def dropPendingConnect (socketId : UInt16) : ProtocolServer :=
  match s.pendingConnects[socketId]? with
  | none => s
  | some p =>
    let reactor := if p.watch ≠ kNoWatch then s.reactor.removeWatch p.watch else s.reactor
    let reactor := if p.report ≠ kNoTimer then reactor.cancel p.report else reactor
    { s with reactor, pendingConnects := s.pendingConnects.erase socketId }

def dropAllPendingConnects : ProtocolServer :=
  s.pendingConnects.keys.foldl dropPendingConnect s

def stopAllWorkers : ProtocolServer :=
  dropAllPendingConnects
    { s with
      reactor := s.eventWatches.foldl (fun r _ w => r.removeWatch w.id) s.reactor
      eventWatches := ∅ }

def eraseSocket (id : UInt16) (abort : Bool) : ProtocolServer × Bool :=
  let s := (s.stopWorker id).dropPendingConnect id
  match s.sockets[id]? with
  | none => (s, false)
  | some fd =>
    (act { s with sockets := s.sockets.erase id } (if abort then .closeWithAbort fd else .closeFd fd),
      true)

def closeAllSockets : ProtocolServer :=
  { s with
    log := s.log ++ s.sockets.toList.map (fun kv => .closeFd kv.2)
    sockets := ∅ }

def armEventWatch (socketId : UInt16) (w : EventWatch) : ProtocolServer :=
  let added := s.reactor.addWatch w.fd (.onWorkerReadable socketId)
  { s with
    reactor := added.1
    eventWatches := s.eventWatches.insert socketId { w with id := added.2 } }

/-! ## Messages and sends -/

def emitEvent (socket serviceId : UInt16) (gid pid : UInt8) (dat : List UInt8) (peer : Endpoint)
    (rid : UInt8 := kRidEOk) : ProtocolServer :=
  s.act (.event socket
    { serviceId, methodId := methodId gid pid true, tid := kTidEvent, rid } dat peer)

def issueSend (socket : UInt16) (fd : Int) (send : QueuedSend) : ProtocolServer :=
  s.act (.send socket fd send.payload send.urgent)

end ProtocolServer

def kMaxQueuedConnectSend : Nat := 0xFFFF

/-- The loop of `buildRepeatedPayload`, from the bytes still wanted. -/
def repeatTo (data : List UInt8) : Nat → Nat → List UInt8
  | 0, _ => []
  | fuel + 1, want =>
    if want = 0 then [] else data.take want ++ repeatTo data fuel (want - min want data.length)

/-- `data` repeated up to `totalLen` bytes, whole where it is longer, zeros where it is empty. Each
round of the loop adds a byte at least, so `want` rounds are enough. -/
def buildRepeatedPayload (data : List UInt8) (totalLen : UInt16) : List UInt8 :=
  let want := max totalLen.toNat data.length
  if data = [] then .replicate want 0 else repeatTo data want want

/-! ## Request parameters -/

structure CreateAndBindReq where
  doBind : Bool
  localPort : UInt16
  localAddr : List UInt8
  deriving DecidableEq, Repr

def parseCreateAndBind (dat : List UInt8) : Option CreateAndBindReq :=
  if dat.length < 1 + 2 + 2 then none
  else
    match readVint8 dat 3 with
    | none => none
    | some (addr, _) =>
      if addr.length ≠ 0 ∧ addr.length ≠ 4 then none
      else some ⟨dat.getD 0 0 ≠ 0, readU16 dat 1, addr⟩

structure SendDataUdpReq where
  socketId : UInt16
  totalLen : UInt16
  dst : Endpoint
  data : List UInt8
  deriving DecidableEq, Repr

/-- An endpoint from the four address bytes on the wire. -/
def endpointFromWire (addr : List UInt8) (port : UInt16) : Endpoint := ⟨copy32 addr 0, port⟩

/-- The IPv4 address at `off` and the offset behind it. -/
def readIpv4Addr (dat : List UInt8) (off : Nat) : Option (List UInt8 × Nat) :=
  match readVint8 dat off with
  | none => none
  | some (addr, off) => if addr.length ≠ 4 then none else some (addr, off)

def readIpv6Addr (dat : List UInt8) (off : Nat) : Option (List UInt8 × Nat) :=
  match readVint8 dat off with
  | none => none
  | some (addr, off) => if addr.length ≠ 16 then none else some (addr, off)

def parseSendDataUdp (dat : List UInt8) : Option SendDataUdpReq :=
  if dat.length < 2 + 2 + 2 then none
  else do
    let (addr, off) ← readIpv4Addr dat 6
    let (data, _) ← readVint8 dat off
    return ⟨readU16 dat 0, readU16 dat 2, endpointFromWire addr (readU16 dat 4), data⟩

structure ConnectReq where
  socketId : UInt16
  dst : Endpoint
  deriving DecidableEq, Repr

def parseConnectTcp (dat : List UInt8) : Option ConnectReq :=
  if dat.length < 2 + 2 then none
  else do
    let (addr, _) ← readIpv4Addr dat 4
    return ⟨readU16 dat 0, endpointFromWire addr (readU16 dat 2)⟩

structure SendDataTcpReq where
  socketId : UInt16
  totalLen : UInt16
  flags : UInt8
  data : List UInt8
  deriving DecidableEq, Repr

def parseSendDataTcp (dat : List UInt8) : Option SendDataTcpReq :=
  if dat.length < 2 + 2 + 1 then none
  else do
    let (data, _) ← readVint8 dat 5
    return ⟨readU16 dat 0, readU16 dat 2, dat.getD 4 0, data⟩

structure ListenReq where
  listenSocketId : UInt16
  maxCon : UInt16
  deriving DecidableEq, Repr

def parseListenAndAcceptTcp (dat : List UInt8) : Option ListenReq :=
  if dat.length < 2 + 2 then none else some ⟨readU16 dat 0, readU16 dat 2⟩

structure CloseReq where
  socketId : UInt16
  abort : Bool
  deriving DecidableEq, Repr

def parseCloseSocket (dat : List UInt8) : Option CloseReq :=
  if dat.length < 2 then none
  else some ⟨readU16 dat 0, dat.length ≥ 3 ∧ dat.getD 2 0 ≠ 0⟩

structure ShutdownReq where
  socketId : UInt16
  typeId : UInt8
  deriving DecidableEq, Repr

def parseShutdownSocket (dat : List UInt8) : Option ShutdownReq :=
  if dat.length < 2 + 1 then none else some ⟨readU16 dat 0, dat.getD 2 0⟩

/-- The `how` of shutdown(2) for a typeId, `none` for an unknown one. -/
def shutdownHow (typeId : UInt8) : Option Nat :=
  if typeId = kShutdownRd then some 0
  else if typeId = kShutdownWr then some 1
  else if typeId = kShutdownRdWr then some 2
  else none

structure ConfigureReq where
  socketId : UInt16
  paramId : UInt16
  val : List UInt8
  deriving DecidableEq, Repr

def parseConfigureSocket (dat : List UInt8) : Option ConfigureReq :=
  if dat.length < 2 + 2 then none
  else do
    let (val, _) ← readVint8 dat 4
    return ⟨readU16 dat 0, readU16 dat 2, val⟩

structure ForwardReq where
  socketId : UInt16
  maxFwd : UInt16
  maxLen : UInt16
  deriving DecidableEq, Repr

def parseReceiveAndForward (dat : List UInt8) : Option ForwardReq :=
  if dat.length < 2 + 2 + 2 then none
  else some ⟨readU16 dat 0, readU16 dat 2, readU16 dat 4⟩

structure EchoReq where
  ifname : List UInt8
  destAddr : List UInt8
  data : List UInt8
  deriving DecidableEq, Repr

/-- ECHO_REQUEST; the two groups differ in the address they read. -/
def parseEcho (readAddr : List UInt8 → Nat → Option (List UInt8 × Nat)) (dat : List UInt8) :
    Option EchoReq := do
  let (ifname, off) ← readText dat 0
  let (addr, off) ← readAddr dat off
  let (data, _) ← readVint8 dat off
  return ⟨ifname, addr, data⟩

def parseEchoRequest (dat : List UInt8) : Option EchoReq := parseEcho readIpv4Addr dat

def parseEchoRequestV6 (dat : List UInt8) : Option EchoReq := parseEcho readIpv6Addr dat

def parseSetInterface (dat : List UInt8) : Option (List UInt8) := do
  let (ifname, _) ← readText dat 0
  return ifname

/-- The netMask byte at `off`. -/
def readMask (dat : List UInt8) (off : Nat) : Option UInt8 :=
  if off ≥ dat.length then none else some (dat.getD off 0)

structure StaticAddressReq where
  ifname : List UInt8
  addr : List UInt8
  mask : UInt8
  deriving DecidableEq, Repr

def parseAddress (readAddr : List UInt8 → Nat → Option (List UInt8 × Nat)) (dat : List UInt8) :
    Option StaticAddressReq := do
  let (ifname, off) ← readText dat 0
  let (addr, off) ← readAddr dat off
  let mask ← readMask dat off
  return ⟨ifname, addr, mask⟩

def parseStaticAddress (dat : List UInt8) : Option StaticAddressReq := parseAddress readIpv4Addr dat

def parseStaticAddressV6 (dat : List UInt8) : Option StaticAddressReq := parseAddress readIpv6Addr dat

structure StaticRouteReq where
  ifname : List UInt8
  subnet : List UInt8
  mask : UInt8
  gateway : List UInt8
  deriving DecidableEq, Repr

def parseRoute (readAddr : List UInt8 → Nat → Option (List UInt8 × Nat)) (dat : List UInt8) :
    Option StaticRouteReq := do
  let (ifname, off) ← readText dat 0
  let (subnet, off) ← readAddr dat off
  let mask ← readMask dat off
  let (gateway, _) ← readAddr dat (off + 1)
  return ⟨ifname, subnet, mask, gateway⟩

def parseStaticRoute (dat : List UInt8) : Option StaticRouteReq := parseRoute readIpv4Addr dat

def parseStaticRouteV6 (dat : List UInt8) : Option StaticRouteReq := parseRoute readIpv6Addr dat

/-! ## Request handlers -/

namespace ProtocolServer

variable (s : ProtocolServer) (a : Answers)

/-- The address to bind: all zeros and an empty one mean any. -/
def bindAddr (addr : List UInt8) : UInt32 :=
  if addr.length = 4 then if addr.all (· = 0) then 0 else copy32 addr 0 else 0

/-- The Result ID and the new socket's id. -/
def createAndBind (dat : List UInt8) (tcp : Bool) : ProtocolServer × UInt8 × UInt16 :=
  match parseCreateAndBind dat with
  | none => (s, kRidEInv, 0)
  | some req =>
    let s := s.act (if tcp then .createTcp a.create else .createUdp a.create)
    if a.create < 0 then (s, kRidEUcs, 0)
    else
      let bindPort := if req.localPort = 0xFFFF then 0 else req.localPort
      let s := if req.doBind then
          (s.act (.setReuseAddr a.create)).act (.bindV4 a.create (bindAddr req.localAddr) bindPort)
        else s
      if req.doBind ∧ a.bindV4 = false then (s.act (.closeFd a.create), kRidEUbs, 0)
      else
        let reg := s.registerSocket a.create
        (reg.1, kRidEOk, reg.2)

def respondCreateAndBind (tcp : Bool) (dat : List UInt8) : ProtocolServer × UInt8 × List UInt8 :=
  let created := s.createAndBind a dat tcp
  (created.1, created.2.1,
    if created.2.1 = kRidEOk then appendU16 [] created.2.2 else [])

def sendDataUdp (dat : List UInt8) : ProtocolServer × UInt8 :=
  match parseSendDataUdp dat with
  | none => (s, kRidEInv)
  | some req =>
    match s.lookupSocket req.socketId with
    | none => (s, kRidEIsd)
    | some fd =>
      (s.act (.sendToV4 fd (buildRepeatedPayload req.data req.totalLen) req.dst),
        if a.send then kRidEOk else kRidENok)

def echoRequest (dat : List UInt8) : ProtocolServer × UInt8 :=
  match parseEchoRequest dat with
  | none => (s, kRidEInv)
  | some req =>
    (s.act (.sendIcmpEcho req.ifname (copy32 req.destAddr 0)
      (buildIcmpEchoRequestBody 0 1 req.data)), a.rid)

def echoRequestV6 (dat : List UInt8) : ProtocolServer × UInt8 :=
  match parseEchoRequestV6 dat with
  | none => (s, kRidEInv)
  | some req =>
    (s.act (.sendIcmpv6Echo req.ifname req.destAddr (buildIcmpv6EchoRequestBody 0 1 req.data)), a.rid)

def setInterface (dat : List UInt8) (up : Bool) : ProtocolServer × UInt8 :=
  match parseSetInterface dat with
  | none => (s, kRidEInv)
  | some ifname => (s.act (.setInterfaceUp ifname up), a.rid)

def staticAddress (dat : List UInt8) : ProtocolServer × UInt8 :=
  match parseStaticAddress dat with
  | none => (s, kRidEInv)
  | some req => (s.act (.setStaticAddressV4 req.ifname (copy32 req.addr 0) req.mask), a.rid)

def staticRoute (dat : List UInt8) : ProtocolServer × UInt8 :=
  match parseStaticRoute dat with
  | none => (s, kRidEInv)
  | some req =>
    (s.act (.setStaticRouteV4 req.ifname (copy32 req.subnet 0) req.mask (copy32 req.gateway 0)), a.rid)

def staticAddressV6 (dat : List UInt8) : ProtocolServer × UInt8 :=
  match parseStaticAddressV6 dat with
  | none => (s, kRidEInv)
  | some req => (s.act (.setStaticAddressV6 req.ifname req.addr req.mask), a.rid)

def staticRouteV6 (dat : List UInt8) : ProtocolServer × UInt8 :=
  match parseStaticRouteV6 dat with
  | none => (s, kRidEInv)
  | some req => (s.act (.setStaticRouteV6 req.ifname req.subnet req.mask req.gateway), a.rid)

/-- `settle_mode` of `connectTcp`: an armed forward keeps the descriptor non-blocking. -/
def settleMode (socketId : UInt16) (fd : Int) : ProtocolServer :=
  if s.eventWatches.contains socketId then s else s.act (.setNonBlocking fd false)

/-- `connectTcp` from the point where the attempt is under way or has failed at once. -/
def openPending (req : ConnectReq) (fd : Int) (serviceId : UInt16) (peer : Endpoint) :
    ProtocolServer :=
  let pending : PendingConnect := { fd, serviceId, peer, forward := s.eventWatches[req.socketId]? }
  let s := s.stopWorker req.socketId
  if a.connectStartV4 = .kInProgress then
    let added := s.reactor.addWriteWatch fd (.onConnectWritable req.socketId)
    { s with
      reactor := added.1
      pendingConnects := s.pendingConnects.insert req.socketId { pending with watch := added.2 } }
  else
    let armed := s.reactor.armOnce a.now 0 (.reportFailedConnect req.socketId)
    { s with
      reactor := armed.1
      pendingConnects := s.pendingConnects.insert req.socketId
        { pending with ended := a.connectStartV4, report := armed.2 } }

def connectTcp (dat : List UInt8) (serviceId : UInt16) (peer : Endpoint) : ProtocolServer × UInt8 :=
  match parseConnectTcp dat with
  | none => (s, kRidEInv)
  | some req =>
    match s.lookupSocket req.socketId with
    | none => (s, kRidEIsd)
    | some fd =>
      if s.pendingConnects.contains req.socketId then (s, kRidETcpCae)
      else
        let s := s.act (.connectStartV4 fd req.dst)
        match a.connectStartV4 with
        | .kEstablished => (s.settleMode req.socketId fd, kRidEOk)
        | .kAlreadyConnected => (s.settleMode req.socketId fd, kRidETcpCae)
        | .kFailed => (s.settleMode req.socketId fd, kRidENok)
        | _ => (s.openPending a req fd serviceId peer, kRidEOk)

/-- `payload` and `urgent` of a SEND_DATA request. -/
def sendOf (req : SendDataTcpReq) : QueuedSend :=
  ⟨buildRepeatedPayload req.data req.totalLen, req.flags &&& kSendFlagUrg ≠ 0⟩

def sendDataTcp (dat : List UInt8) : ProtocolServer × UInt8 :=
  match parseSendDataTcp dat with
  | none => (s, kRidEInv)
  | some req =>
    match s.lookupSocket req.socketId with
    | none => (s, kRidEIsd)
    | some fd =>
      let send := sendOf req
      match s.pendingConnects[req.socketId]? with
      | some pending =>
        if pending.queuedBytes + send.payload.length > kMaxQueuedConnectSend then (s, kRidETcpInr)
        else
          ({ s with
              pendingConnects := s.pendingConnects.insert req.socketId
                { pending with
                  queuedBytes := pending.queuedBytes + send.payload.length
                  sends := pending.sends ++ [send] } },
            kRidEOk)
      | none => (s.issueSend req.socketId fd send, if a.send then kRidEOk else kRidENok)

def listenAndAcceptTcp (dat : List UInt8) (serviceId : UInt16) (peer : Endpoint) :
    ProtocolServer × UInt8 :=
  match parseListenAndAcceptTcp dat with
  | none => (s, kRidEInv)
  | some req =>
    let maxCon := if req.maxCon = 0 then 1 else req.maxCon
    match s.lookupSocket req.listenSocketId with
    | none => (s, kRidEIsd)
    | some fd =>
      let s := s.act (.listen fd maxCon)
      if a.listen = false then (s, kRidENok)
      else
        let s := (s.stopWorker req.listenSocketId).act (.setNonBlocking fd true)
        (s.armEventWatch req.listenSocketId
          { kind := .kAccept, fd, serviceId, peer, listenSocketId := req.listenSocketId, maxCon },
          kRidEOk)

def closeSocket (dat : List UInt8) : ProtocolServer × UInt8 :=
  match parseCloseSocket dat with
  | none => (s, kRidEInv)
  | some req =>
    let erased := s.eraseSocket req.socketId req.abort
    (erased.1, if erased.2 then kRidEOk else kRidEIsd)

def shutdownSocket (dat : List UInt8) : ProtocolServer × UInt8 :=
  match parseShutdownSocket dat with
  | none => (s, kRidEInv)
  | some req =>
    match shutdownHow req.typeId with
    | none => (s, kRidEInv)
    | some how =>
      match s.lookupSocket req.socketId with
      | none => (s, kRidEIsd)
      | some fd =>
        ((s.dropPendingConnect req.socketId).act (.shutdown fd how),
          if a.shutdown then kRidEOk else kRidENok)

def configureSocket (dat : List UInt8) : ProtocolServer × UInt8 :=
  match parseConfigureSocket dat with
  | none => (s, kRidEInv)
  | some req =>
    match s.lookupSocket req.socketId with
    | none => (s, kRidEIsd)
    | some fd => (s.act (.configureOption fd req.paramId req.val), a.rid)

/-- `make_watch` of `receiveAndForward`. -/
def makeWatch (req : ForwardReq) (fd : Int) (serviceId : UInt16) (peer : Endpoint) (udp : Bool) :
    EventWatch :=
  { kind := if udp then .kRecvUdp else .kRecvTcp, fd, serviceId, peer
    maxFwd := req.maxFwd, maxLen := req.maxLen, limitless := req.maxLen = 0xFFFF }

/-- The positive counts the drain reads before it meets an empty queue. -/
def drained : List Int := a.recv.takeWhile (0 < ·)

/-- The byte counts the drain adds up, as the 32-bit sum the source keeps. -/
def dropCnt : UInt16 :=
  let dropped := (drained a).foldl (fun sum n => sum + UInt32.ofNat n.toNat) 0
  if dropped > 0xFFFF then 0xFFFF else dropped.toUInt16

def receiveAndForward (dat : List UInt8) (serviceId : UInt16) (peer : Endpoint) (udp : Bool) :
    ProtocolServer × UInt8 × List UInt8 :=
  match parseReceiveAndForward dat with
  | none => (s, kRidEInv, [])
  | some req =>
    match s.lookupSocket req.socketId with
    | none => (s, kRidEIsd, [])
    | some fd =>
      let watch := makeWatch req fd serviceId peer udp
      match s.pendingConnects[req.socketId]? with
      | some pending =>
        ({ s with
            pendingConnects := s.pendingConnects.insert req.socketId
              { pending with forward := some watch } },
          kRidEOk, appendU16 [] 0)
      | none =>
        let s := s.act (.setNonBlocking fd true)
        -- one `recv` for each count and one that ends the loop
        let s := { s with log := s.log ++ List.replicate ((drained a).length + 1) (Action.recv fd) }
        let s := s.act (.setNonBlocking fd false)
        let s := (s.stopWorker req.socketId).act (.setNonBlocking fd true)
        (s.armEventWatch req.socketId watch, kRidEOk, appendU16 [] (dropCnt a))

/-! ## Workers -/

/-- `acceptOne`: the server, the watch as the handler left it, and whether to keep it. -/
def acceptOne (w : EventWatch) (socketId : UInt16) : ProtocolServer × EventWatch × Bool :=
  if w.accepted ≥ w.maxCon then (s, w, false)
  else
    let s := s.act (.accept w.fd a.accept)
    if a.accept < 0 then (s, w, true)
    else
      let reg := s.registerSocket a.accept
      let w := { w with accepted := w.accepted + 1 }
      let dat := appendIpv4Addr (appendU16 (appendU16 (appendU16 [] w.listenSocketId) reg.2)
        a.client.port) a.client.addrBe
      (reg.1.emitEvent socketId w.serviceId kGidTcp kPidListenAndAccept dat w.peer, w,
        w.accepted < w.maxCon)

/-- The Event that ends a forward: no payload, and the Result ID that says why. -/
def endForward (socket : UInt16) (w : EventWatch) (rid : UInt8) : ProtocolServer :=
  s.emitEvent socket w.serviceId kGidTcp kPidReceiveAndForward (appendVint8 (appendU16 [] 0) []) w.peer
    rid

def recvForwardTcpOne (w : EventWatch) (socketId : UInt16) : ProtocolServer × EventWatch × Bool :=
  if w.limitless = false ∧ w.consumed ≥ w.maxLen.toUInt32 then (s, w, false)
  else
    let s := s.act (.recvEnd w.fd w.want)
    if a.stop ≠ .kNone then
      (s.endForward socketId w (if a.stop = .kReset then kRidETcpCre else kRidETcpCoc), w, false)
    else
      match a.recvEnd with
      | none => (s, w, true)
      | some [] => (s, w, true)
      | some data =>
        let w := { w with consumed := w.consumed + UInt32.ofNat data.length }
        let fwdLen := UInt16.ofNat (min data.length w.maxFwd.toNat)
        let dat := appendVint8 (appendU16 [] (UInt16.ofNat data.length)) (data.take fwdLen.toNat)
        (s.emitEvent socketId w.serviceId kGidTcp kPidReceiveAndForward dat w.peer, w,
          w.limitless || w.consumed < w.maxLen.toUInt32)

def recvForwardUdpOne (w : EventWatch) (socketId : UInt16) : ProtocolServer × EventWatch × Bool :=
  if w.limitless = false ∧ w.consumed ≥ w.maxLen.toUInt32 then (s, w, false)
  else
    let s := s.act (.recvFromV4 w.fd)
    match a.recvFromV4 with
    | none => (s, w, true)
    | some (datagram, src) =>
      let buf := datagram.take 2048
      let w := { w with consumed := w.consumed + UInt32.ofNat datagram.length }
      let fullLen := UInt16.ofNat (min datagram.length 0xFFFF)
      let fwdLen := UInt16.ofNat (min buf.length w.maxFwd.toNat)
      let dat := appendVint8 (appendIpv4Addr (appendU16 (appendU16 [] fullLen) src.port) src.addrBe)
        (buf.take fwdLen.toNat)
      (s.emitEvent socketId w.serviceId kGidUdp kPidReceiveAndForward dat w.peer, w,
        w.limitless || w.consumed < w.maxLen.toUInt32)

def serveOne (w : EventWatch) (socketId : UInt16) : ProtocolServer × EventWatch × Bool :=
  match w.kind with
  | .kAccept => s.acceptOne a w socketId
  | .kRecvTcp => s.recvForwardTcpOne a w socketId
  | .kRecvUdp => s.recvForwardUdpOne a w socketId

/-- The record keeps what the body changed; a body that is done removes its watch and the record. -/
def onWorkerReadable (socketId : UInt16) : ProtocolServer :=
  match s.eventWatches[socketId]? with
  | none => s
  | some w =>
    let served := s.serveOne a w socketId
    if served.2.2 then
      { served.1 with eventWatches := served.1.eventWatches.insert socketId served.2.1 }
    else
      { served.1 with
        reactor := served.1.reactor.removeWatch served.2.1.id
        eventWatches := served.1.eventWatches.erase socketId }

/-! ## Pending connects -/

/-- The Result ID that reports a failed attempt. -/
def connectRid : ConnectProgress → UInt8
  | .kRefused => kRidETcpCor
  | .kReset => kRidETcpCre
  | .kTimedOut => kRidETcpCat
  | _ => kRidENok

/-- The part of `finishConnect` that takes the attempt out of the tables. -/
def closePending (socketId : UInt16) (p : PendingConnect) : ProtocolServer :=
  { s with
    reactor := if p.watch ≠ kNoWatch then s.reactor.removeWatch p.watch else s.reactor
    pendingConnects := s.pendingConnects.erase socketId }

def finishConnect (socketId : UInt16) (stop : ConnectProgress) : ProtocolServer :=
  match s.pendingConnects[socketId]? with
  | none => s
  | some p =>
    let s := s.closePending socketId p
    if stop = .kEstablished then
      let s := if p.forward.isNone then s.act (.setNonBlocking p.fd false) else s
      let s := p.sends.foldl (fun s send => s.issueSend socketId p.fd send) s
      match p.forward with
      | none => s
      | some w => s.armEventWatch socketId w
    else
      let s := s.act (.setNonBlocking p.fd false)
      let s := s.emitEvent socketId p.serviceId kGidTcp kPidConnect [] p.peer (connectRid stop)
      match p.forward with
      | none => s
      | some w => s.endForward socketId w (connectRid stop)

def onConnectWritable (socketId : UInt16) : ProtocolServer :=
  match s.pendingConnects[socketId]? with
  | none => s
  | some p =>
    let s := s.act (.connectProgress p.fd)
    if a.connectProgress ≠ .kInProgress then s.finishConnect socketId a.connectProgress else s

def reportFailedConnect (socketId : UInt16) : ProtocolServer :=
  match s.pendingConnects[socketId]? with
  | none => s
  | some p =>
    finishConnect
      { s with
        pendingConnects := s.pendingConnects.insert socketId { p with report := kNoTimer } }
      socketId p.ended

/-! ## The control socket -/

/-- A handler that answers with a Result ID alone. -/
def noDat (r : ProtocolServer × UInt8) : ProtocolServer × UInt8 × List UInt8 := (r.1, r.2, [])

def dispatchGeneral (pid : UInt8) : ProtocolServer × UInt8 × List UInt8 :=
  if pid = kPidGetVersion then
    (s, kRidEOk, appendU16 (appendU16 (appendU16 [] kVersionMajor) kVersionMinor) kVersionPatch)
  else if pid = kPidStartTest then (s, kRidEOk, [])
  else if pid = kPidEndTest then (s.stopAllWorkers.closeAllSockets, kRidEOk, [])
  else (s, kRidENtf, [])

def dispatchUdp (pid : UInt8) (dat : List UInt8) (serviceId : UInt16) (peer : Endpoint) :
    ProtocolServer × UInt8 × List UInt8 :=
  if pid = kPidCreateAndBind then s.respondCreateAndBind a false dat
  else if pid = kPidSendData then noDat (s.sendDataUdp a dat)
  else if pid = kPidCloseSocket then noDat (s.closeSocket dat)
  else if pid = kPidShutdown then noDat (s.shutdownSocket a dat)
  else if pid = kPidReceiveAndForward then s.receiveAndForward a dat serviceId peer true
  else if pid = kPidConfigureSocket then noDat (s.configureSocket a dat)
  else (s, kRidENtf, [])

def dispatchTcp (pid : UInt8) (dat : List UInt8) (serviceId : UInt16) (peer : Endpoint) :
    ProtocolServer × UInt8 × List UInt8 :=
  if pid = kPidCreateAndBind then s.respondCreateAndBind a true dat
  else if pid = kPidConnect then noDat (s.connectTcp a dat serviceId peer)
  else if pid = kPidListenAndAccept then noDat (s.listenAndAcceptTcp a dat serviceId peer)
  else if pid = kPidSendData then noDat (s.sendDataTcp a dat)
  else if pid = kPidCloseSocket then noDat (s.closeSocket dat)
  else if pid = kPidShutdown then noDat (s.shutdownSocket a dat)
  else if pid = kPidReceiveAndForward then s.receiveAndForward a dat serviceId peer false
  else if pid = kPidConfigureSocket then noDat (s.configureSocket a dat)
  else (s, kRidENtf, [])

def dispatch (req : Header) (dat : List UInt8) (peer : Endpoint) :
    ProtocolServer × UInt8 × List UInt8 :=
  let gid := gidOf req.methodId
  let pid := pidOf req.methodId
  if gid = kGidGeneral then s.dispatchGeneral pid
  else if gid = kGidUdp then s.dispatchUdp a pid dat req.serviceId peer
  else if gid = kGidTcp then s.dispatchTcp a pid dat req.serviceId peer
  else if gid = kGidIcmp ∧ pid = kPidEchoRequest then noDat (s.echoRequest a dat)
  else if gid = kGidIcmpv6 ∧ pid = kPidEchoRequest then noDat (s.echoRequestV6 a dat)
  else if gid = kGidIp ∧ pid = kPidStaticAddress then noDat (s.staticAddress a dat)
  else if gid = kGidIp ∧ pid = kPidStaticRoute then noDat (s.staticRoute a dat)
  else if gid = kGidIpv6 ∧ pid = kPidStaticAddress then noDat (s.staticAddressV6 a dat)
  else if gid = kGidIpv6 ∧ pid = kPidStaticRoute then noDat (s.staticRouteV6 a dat)
  else if gid = kGidEth ∧ pid = kPidInterfaceUp then noDat (s.setInterface a dat true)
  else if gid = kGidEth ∧ pid = kPidInterfaceDown then noDat (s.setInterface a dat false)
  else (s, kRidENtf, [])

end ProtocolServer

structure Request where
  header : Header
  dat : List UInt8
  peer : Endpoint
  deriving DecidableEq, Repr

/-- What the server makes of a datagram on the control socket: a request, or nothing. -/
def requestOf (datagram : List UInt8) (peer : Endpoint) : Option Request :=
  if datagram.length < kHeaderSize then none
  else
    let buf := datagram.take 2048
    match parseHeader buf with
    | none => none
    | some header => if header.tid ≠ kTidRequest then none else some ⟨header, buf.drop kHeaderSize, peer⟩

namespace ProtocolServer

variable (s : ProtocolServer) (a : Answers)

/-- Dispatch and the Response, which goes out last. -/
def serve (req : Request) : ProtocolServer :=
  let done := s.dispatch a req.header req.dat req.peer
  done.1.act (.response { req.header with tid := kTidResponse, rid := done.2.1 } done.2.2 req.peer)

def onControlReadable : ProtocolServer :=
  let s := s.act (.recvFromV4 s.fd)
  match a.recvFromV4 with
  | none => s
  | some (datagram, peer) =>
    match requestOf datagram peer with
    | none => s
    | some req => s.serve a req

/-! ## Runs -/

def runHandler : Handler → ProtocolServer
  | .onControlReadable => s.onControlReadable a
  | .onWorkerReadable id => s.onWorkerReadable a id
  | .onConnectWritable id => s.onConnectWritable a id
  | .reportFailedConnect id => s.reportFailedConnect id

end ProtocolServer

/-- What fires next. A handle that is not registered fires nothing, as a watch does that an earlier
handler of the round removed. -/
inductive Trigger where
  | watch (id : Nat)
  | timer (id : Nat)
  deriving DecidableEq, Repr

structure Input where
  trigger : Trigger
  answers : Answers := {}
  deriving DecidableEq, Repr

namespace ProtocolServer

variable (s : ProtocolServer)

/-- The handler a trigger runs. -/
def fires : Trigger → Option Handler
  | .watch id => s.reactor.watches[id]?.map (·.fn)
  | .timer id => s.reactor.timers[id]?.map (·.fn)

/-- A timer is taken off the table before its handler runs. -/
def prepare (now : Int) : Trigger → ProtocolServer
  | .watch _ => s
  | .timer id => { s with reactor := s.reactor.expire now id }

def step (i : Input) : ProtocolServer :=
  match s.fires i.trigger with
  | none => s
  | some handler => (s.prepare i.answers.now i.trigger).runHandler i.answers handler

def run (is : List Input) : ProtocolServer := is.foldl step s

end ProtocolServer

end Tc8Harness.Testability
