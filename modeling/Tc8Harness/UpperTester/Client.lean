import Tc8Harness.UpperTester.Extensions

/-!
# The requests of the Upper Tester client

The builders of `src/stimulus/upper_tester_client.cpp`, and `Request`, the calls of them: what the client
asks for, with the parameters it passes. A payload is a pointer, which may be null, and a length.
-/

namespace Tc8Harness.UpperTester

open BigEndian Wire Someip

/-! ## Builders -/

section Builders

variable (reqId : UInt8)

def buildGetReceivedUdpRequest (listenPort : UInt16) (expectedDstIpBe : UInt32) : List UInt8 :=
  [opGetReceivedUdp, reqId] ++ (putBe16 listenPort ++ bytes32 expectedDstIpBe)

/-- A length clamped to what the protocol carries. -/
def effectiveLen (len : UInt16) : UInt16 := if kMaxPayload < len.toNat then UInt16.ofNat kMaxPayload else len

/-- `payload` where it is not null, `len` bytes of it. -/
def payloadBytes (payload : Option (List UInt8)) (len : UInt16) : List UInt8 :=
  match payload with
  | some bytes => if 0 < len then bytes.take len.toNat else []
  | none => []

/-- The source override is a trailer that is left out when there is none. -/
def buildTriggerSendUdpRequest (srcPort : UInt16) (dstIpBe : UInt32) (dstPort : UInt16)
    (payload : Option (List UInt8)) (payloadLen : UInt16) (srcIpOverrideBe : UInt32) : List UInt8 :=
  let len := effectiveLen payloadLen
  [opTriggerSendUdp, reqId] ++ (putBe16 srcPort ++ (bytes32 dstIpBe ++ (putBe16 dstPort ++ (putBe16 len ++
    (payloadBytes payload len ++ if srcIpOverrideBe ≠ 0 then bytes32 srcIpOverrideBe else [])))))

def buildOpenTcpSocketPassiveRequest (localPort : UInt16) : List UInt8 :=
  [opOpenTcpSocket, reqId] ++ ([kSocketTypePassive] ++ putBe16 localPort)

def buildOpenTcpSocketActiveRequest (localPort : UInt16) (remoteIpBe : UInt32) (remotePort : UInt16) :
    List UInt8 :=
  [opOpenTcpSocket, reqId] ++ ([kSocketTypeActive] ++ (putBe16 localPort ++ (bytes32 remoteIpBe ++
    putBe16 remotePort)))

def buildCloseTcpSocketRequest (socketId : UInt8) : List UInt8 :=
  [opCloseTcpSocket, reqId] ++ [socketId]

def buildQueryTcpEstablishedRequest (socketId : UInt8) : List UInt8 :=
  [opQueryTcpEstablished, reqId] ++ [socketId]

def buildQueryTcpInfoRequest (socketId : UInt8) : List UInt8 := [opQueryTcpInfo, reqId] ++ [socketId]

def buildSendTcpDataRequest (socketId : UInt8) (payload : Option (List UInt8)) (payloadLen : UInt16) :
    List UInt8 :=
  let len := effectiveLen payloadLen
  [opSendTcpData, reqId] ++ ([socketId] ++ (putBe16 len ++ payloadBytes payload len))

def buildReceiveTcpDataRequest (socketId : UInt8) (expectedLen timeoutMs : UInt16) : List UInt8 :=
  [opReceiveTcpData, reqId] ++ ([socketId] ++ (putBe16 (effectiveLen expectedLen) ++ putBe16 timeoutMs))

def buildReceiveTcpDataOobRequest (socketId : UInt8) (expectedLen timeoutMs : UInt16) : List UInt8 :=
  [opReceiveTcpDataOob, reqId] ++ ([socketId] ++ (putBe16 (effectiveLen expectedLen) ++
    putBe16 timeoutMs))

def buildShutdownTcpSocketWrRequest (socketId : UInt8) : List UInt8 :=
  [opShutdownTcpSocketWr, reqId] ++ [socketId]

def buildAbortTcpSocketRequest (socketId : UInt8) : List UInt8 :=
  [opAbortTcpSocket, reqId] ++ [socketId]

def buildSendTcpDataPatternRequest (socketId pattern : UInt8) (totalLen : UInt16) : List UInt8 :=
  [opSendTcpDataPattern, reqId] ++ ([socketId] ++ ([pattern] ++ putBe16 totalLen))

/-- The seven timing knobs. -/
def putLinklocalTimings (params : LinklocalTimings) : List UInt8 :=
  putBe16 params.dhcpTimeoutMs ++ (putBe16 params.probeWaitMs ++ (putBe16 params.probeMinMs ++
    (putBe16 params.probeMaxMs ++ (putBe16 params.announceWaitMs ++ (putBe16 params.announceIntervalMs ++
      putBe16 params.rateLimitIntervalMs)))))

def buildStartLLAutoconfRequest (params : LinklocalTimings) : List UInt8 :=
  [opStartLLAutoconf, reqId] ++ putLinklocalTimings params

def buildQueryLLAddressRequest : List UInt8 := [opQueryLLAddress, reqId]

def buildAbortLLAutoconfRequest : List UInt8 := [opAbortLLAutoconf, reqId]

/-- The timings of `params`, an interface and a flavor byte. -/
def buildStartDhcpClientRequest (params : DhcpTimings) (ifaceIndex flavor : UInt8) : List UInt8 :=
  [opStartDhcpClient, reqId] ++ (putBe16 params.offerWaitMs ++ (putBe16 params.ackWaitMs ++
    ([params.retryCount] ++ (putBe16 params.retryIntervalMs ++ (putBe16 params.nakToDiscoverMinMs ++
    (putBe16 params.nakToDiscoverMaxMs ++ (putBe16 params.arpProbeListenMs ++
    (putBe16 params.declineToDiscoverMinMs ++ (putBe16 params.declineToDiscoverMaxMs ++
    (putBe16 params.retxFirstMs ++ (putBe16 params.retxCapMs ++ (putBe16 params.retxJitterMs ++
    ([ifaceIndex] ++ [flavor])))))))))))))

def buildQueryDhcpLeaseRequest : List UInt8 := [opQueryDhcpLease, reqId]

def buildAbortDhcpClientRequest : List UInt8 := [opAbortDhcpClient, reqId]

def buildCreateUdpReceivePortsRequest (count : UInt8) : List UInt8 :=
  [opCreateUdpReceivePorts, reqId] ++ [count]

def buildPingRequest : List UInt8 := [opPing, reqId]

def buildQueryCapabilitiesRequest : List UInt8 := [opQueryCapabilities, reqId]

def buildConditionArpCacheRequest (action : UInt8) (param : UInt16) : List UInt8 :=
  [opConditionArpCache, reqId] ++ ([action] ++ putBe16 param)

def buildArpAddStaticRequest (entryIpBe : UInt32) (entryMac : Vector UInt8 6) : List UInt8 :=
  buildConditionArpCacheRequest reqId kArpConditionAddStatic 0 ++ (bytes32 entryIpBe ++ entryMac.toList)

def buildArpRemoveStaticRequest (entryIpBe : UInt32) : List UInt8 :=
  buildConditionArpCacheRequest reqId kArpConditionRemoveStatic 0 ++ bytes32 entryIpBe

def buildSetFlavorRequest (opcode flavor : UInt8) : List UInt8 := [opcode, reqId] ++ [flavor]

def buildStartLLAutoconfBuggyRequest (params : LinklocalTimings) (flavor : UInt8) : List UInt8 :=
  [opStartLLAutoconfBuggy, reqId] ++ (putLinklocalTimings params ++ [flavor])

end Builders

/-! ## Requests -/

/-- What a flavor opcode arms. -/
inductive FlavorTarget where
  | egress
  | ingress
  | app
  | ets
  deriving DecidableEq, Repr

def FlavorTarget.opcode : FlavorTarget → UInt8
  | .egress => opSetEgressFlavor
  | .ingress => opSetIngressFlavor
  | .app => opSetAppFlavor
  | .ets => opSetEtsFlavor

/-- A call of a builder. A payload has a 16-bit length. -/
inductive Request where
  | getReceivedUdp (listenPort : UInt16) (expectedDstIpBe : UInt32)
  | triggerSendUdp (srcPort : UInt16) (dstIpBe : UInt32) (dstPort : UInt16)
      (payload : { bytes : List UInt8 // bytes.length ≤ 0xFFFF }) (srcIpOverrideBe : UInt32)
  | openTcpPassive (localPort : UInt16)
  | openTcpActive (localPort : UInt16) (remoteIpBe : UInt32) (remotePort : UInt16)
  | closeTcp (socketId : UInt8)
  | queryTcpEstablished (socketId : UInt8)
  | queryTcpInfo (socketId : UInt8)
  | sendTcpData (socketId : UInt8) (payload : { bytes : List UInt8 // bytes.length ≤ 0xFFFF })
  | receiveTcpData (socketId : UInt8) (expectedLen timeoutMs : UInt16)
  | receiveTcpDataOob (socketId : UInt8) (expectedLen timeoutMs : UInt16)
  | shutdownTcpWr (socketId : UInt8)
  | abortTcp (socketId : UInt8)
  | sendTcpDataPattern (socketId pattern : UInt8) (totalLen : UInt16)
  | startLLAutoconf (params : LinklocalTimings)
  | queryLLAddress
  | abortLLAutoconf
  | startDhcpClient (params : DhcpTimings) (ifaceIndex flavor : UInt8)
  | queryDhcpLease
  | abortDhcpClient
  | createUdpReceivePorts (count : UInt8)
  | ping
  | queryCapabilities
  | conditionArpCache (action : UInt8) (param : UInt16)
  | arpAddStatic (entryIpBe : UInt32) (entryMac : Vector UInt8 6)
  | arpRemoveStatic (entryIpBe : UInt32)
  | setFlavor (target : FlavorTarget) (flavor : UInt8)
  | startLLAutoconfBuggy (params : LinklocalTimings) (flavor : UInt8)

def Request.build (reqId : UInt8) : Request → List UInt8
  | getReceivedUdp listenPort expectedDstIpBe =>
    buildGetReceivedUdpRequest reqId listenPort expectedDstIpBe
  | triggerSendUdp srcPort dstIpBe dstPort payload srcIpOverrideBe =>
    buildTriggerSendUdpRequest reqId srcPort dstIpBe dstPort (some payload.1)
      (UInt16.ofNat payload.1.length) srcIpOverrideBe
  | openTcpPassive localPort => buildOpenTcpSocketPassiveRequest reqId localPort
  | openTcpActive localPort remoteIpBe remotePort =>
    buildOpenTcpSocketActiveRequest reqId localPort remoteIpBe remotePort
  | closeTcp socketId => buildCloseTcpSocketRequest reqId socketId
  | queryTcpEstablished socketId => buildQueryTcpEstablishedRequest reqId socketId
  | queryTcpInfo socketId => buildQueryTcpInfoRequest reqId socketId
  | sendTcpData socketId payload =>
    buildSendTcpDataRequest reqId socketId (some payload.1) (UInt16.ofNat payload.1.length)
  | receiveTcpData socketId expectedLen timeoutMs =>
    buildReceiveTcpDataRequest reqId socketId expectedLen timeoutMs
  | receiveTcpDataOob socketId expectedLen timeoutMs =>
    buildReceiveTcpDataOobRequest reqId socketId expectedLen timeoutMs
  | shutdownTcpWr socketId => buildShutdownTcpSocketWrRequest reqId socketId
  | abortTcp socketId => buildAbortTcpSocketRequest reqId socketId
  | sendTcpDataPattern socketId pattern totalLen =>
    buildSendTcpDataPatternRequest reqId socketId pattern totalLen
  | startLLAutoconf params => buildStartLLAutoconfRequest reqId params
  | queryLLAddress => buildQueryLLAddressRequest reqId
  | abortLLAutoconf => buildAbortLLAutoconfRequest reqId
  | startDhcpClient params ifaceIndex flavor =>
    buildStartDhcpClientRequest reqId params ifaceIndex flavor
  | queryDhcpLease => buildQueryDhcpLeaseRequest reqId
  | abortDhcpClient => buildAbortDhcpClientRequest reqId
  | createUdpReceivePorts count => buildCreateUdpReceivePortsRequest reqId count
  | ping => buildPingRequest reqId
  | queryCapabilities => buildQueryCapabilitiesRequest reqId
  | conditionArpCache action param => buildConditionArpCacheRequest reqId action param
  | arpAddStatic entryIpBe entryMac => buildArpAddStaticRequest reqId entryIpBe entryMac
  | arpRemoveStatic entryIpBe => buildArpRemoveStaticRequest reqId entryIpBe
  | setFlavor target flavor => buildSetFlavorRequest reqId target.opcode flavor
  | startLLAutoconfBuggy params flavor => buildStartLLAutoconfBuggyRequest reqId params flavor

end Tc8Harness.UpperTester
