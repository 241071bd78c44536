import Tc8Harness.Wire.Checksum

/-!
# The Upper Tester's wire format

`include/tc8/upper_tester_protocol.h`: opcodes, statuses and the decoder of responses. A request is
`<opcode> <req_id> <params>`, its response `<opcode | 0x80> <req_id> <status> <body>`. The decoder's
pointer into the payload is the list of bytes from there on.
-/

namespace Tc8Harness.UpperTester

open BigEndian Wire Someip

/-! ## Opcodes and statuses -/

def kMaxPayload : Nat := 256
def kResponseBit : UInt8 := 0x80
def kRequestOpcodeMask : UInt8 := 0x7F

def opGetReceivedUdp : UInt8 := 0x01
def opTriggerSendUdp : UInt8 := 0x02
def opOpenTcpSocket : UInt8 := 0x03
def opCloseTcpSocket : UInt8 := 0x04
def opQueryTcpEstablished : UInt8 := 0x05
def opSendTcpData : UInt8 := 0x06
def opReceiveTcpData : UInt8 := 0x07
def opShutdownTcpSocketWr : UInt8 := 0x08
def opAbortTcpSocket : UInt8 := 0x09
def opSendTcpDataPattern : UInt8 := 0x0A
def opReceiveTcpDataOob : UInt8 := 0x0B
def opStartLLAutoconf : UInt8 := 0x0C
def opQueryLLAddress : UInt8 := 0x0D
def opAbortLLAutoconf : UInt8 := 0x0E
def opStartLLAutoconfBuggy : UInt8 := 0x0F
def opStartDhcpClient : UInt8 := 0x10
def opQueryDhcpLease : UInt8 := 0x11
def opAbortDhcpClient : UInt8 := 0x12
def opQueryTcpInfo : UInt8 := 0x13
def opCreateUdpReceivePorts : UInt8 := 0x14
def opPing : UInt8 := 0x15
def opQueryCapabilities : UInt8 := 0x16
def opConditionArpCache : UInt8 := 0x17
def opSetEgressFlavor : UInt8 := 0x18
def opSetIngressFlavor : UInt8 := 0x19
def opSetAppFlavor : UInt8 := 0x1A
def opSetEtsFlavor : UInt8 := 0x1B

/-- `kMaxProtocolOpcode / 8 + 1`. -/
def kCapabilityBitmapBytes : Nat := 4

def kTcpStateEstablished : UInt8 := 1

def kRecvEndNone : UInt8 := 0x00
def kRecvEndPeerClosed : UInt8 := 0x01
def kRecvEndReset : UInt8 := 0x02

def kStatusOk : UInt8 := 0x00
def kStatusMalformed : UInt8 := 0x01
def kStatusUnknownOpcode : UInt8 := 0x02
def kStatusSendFailed : UInt8 := 0x03
def kStatusBindFailed : UInt8 := 0x04
def kStatusUnknownSocket : UInt8 := 0x05
def kStatusConnectFailed : UInt8 := 0x06
def kStatusNotPerformed : UInt8 := 0x07

def kSocketTypePassive : UInt8 := 0x00
def kSocketTypeActive : UInt8 := 0x01

def kArpConditionFlushAll : UInt8 := 0x01
def kArpConditionAgeBySeconds : UInt8 := 0x02
def kArpConditionAddStatic : UInt8 := 0x03
def kArpConditionRemoveStatic : UInt8 := 0x04

/-! ## Decoding a response -/

structure UtResponse where
  present : Bool := false
  opcode : UInt8 := 0
  requestOpcode : UInt8 := 0
  reqId : UInt8 := 0
  isResponse : Bool := false
  hasStatus : Bool := false
  status : UInt8 := 0
  receivedValid : Bool := false
  received : UInt8 := 0
  recvTrailerValid : Bool := false
  recvSrcIp : UInt32 := 0
  recvSrcPort : UInt16 := 0
  recvPayloadLen : UInt16 := 0
  /-- `recv_payload` with `recv_payload_avail` bytes behind it. -/
  recvPayload : List UInt8 := []
  establishedValid : Bool := false
  established : UInt8 := 0
  recvLenValid : Bool := false
  recvLen : UInt16 := 0
  recvEnd : UInt8 := 0
  llAddressValid : Bool := false
  llAddress : UInt32 := 0
  dhcpLeaseValid : Bool := false
  dhcpLease : UInt32 := 0
  tcpInfoValid : Bool := false
  tcpState : UInt8 := 0
  tcpRtoUs : UInt32 := 0
  tcpRetransmits : UInt8 := 0
  tcpUnacked : UInt32 := 0
  createCountValid : Bool := false
  createActualCount : UInt8 := 0
  deriving DecidableEq, Repr

namespace UtResponse

variable (r : UtResponse) (body : List UInt8)

def decodeReceivedUdp : UtResponse :=
  if 1 ≤ body.length then
    let r := { r with receivedValid := true, received := body.getD 0 0 }
    if r.received = 1 ∧ 9 ≤ body.length then
      { r with recvTrailerValid := true, recvSrcIp := copy32 body 1, recvSrcPort := readBe16 body 5,
               recvPayloadLen := readBe16 body 7, recvPayload := body.drop 9 }
    else r
  else r

/-- The byte behind the received bytes, where there is one, says how the stream ended. -/
def decodeReceiveTcp : UtResponse :=
  if 2 ≤ body.length then
    let r := { r with recvLenValid := true, recvLen := readBe16 body 0 }
    let after := 2 + r.recvLen.toNat
    if after < body.length then { r with recvEnd := body.getD after 0 } else r
  else r

def decodeTcpInfo : UtResponse :=
  if 10 ≤ body.length then
    { r with tcpInfoValid := true, tcpState := body.getD 0 0, tcpRtoUs := readBe32 body 1,
             tcpRetransmits := body.getD 5 0, tcpUnacked := readBe32 body 6 }
  else r

def decodeResponseBody : UtResponse :=
  if r.requestOpcode = opGetReceivedUdp then r.decodeReceivedUdp body
  else if r.requestOpcode = opQueryTcpEstablished then
    if 1 ≤ body.length then { r with establishedValid := true, established := body.getD 0 0 } else r
  else if r.requestOpcode = opReceiveTcpData ∨ r.requestOpcode = opReceiveTcpDataOob then
    r.decodeReceiveTcp body
  else if r.requestOpcode = opQueryLLAddress then
    if 4 ≤ body.length then { r with llAddressValid := true, llAddress := copy32 body 0 } else r
  else if r.requestOpcode = opQueryDhcpLease then
    if 4 ≤ body.length then { r with dhcpLeaseValid := true, dhcpLease := copy32 body 0 } else r
  else if r.requestOpcode = opQueryTcpInfo then r.decodeTcpInfo body
  else if r.requestOpcode = opCreateUdpReceivePorts then
    if 1 ≤ body.length then { r with createCountValid := true, createActualCount := body.getD 0 0 }
    else r
  else r

end UtResponse

/-- Only a response has a status and a body behind the request id. -/
def decodeResponse (payload : List UInt8) : UtResponse :=
  if payload.length < 2 then {}
  else
    let opcode := payload.getD 0 0
    let r : UtResponse :=
      { present := true, opcode, reqId := payload.getD 1 0, isResponse := opcode &&& kResponseBit != 0,
        requestOpcode := opcode &&& kRequestOpcodeMask }
    if !r.isResponse then r
    else if payload.length < 3 then r
    else { r with hasStatus := true, status := payload.getD 2 0 }.decodeResponseBody (payload.drop 3)

end Tc8Harness.UpperTester
