import Tc8Harness.Wire.Checksum

/-!
# The frame builders

`src/stimulus/ipv4_frame_builder.cpp`, `tcp_segment_builder.cpp`, `udp_datagram_builder.cpp` and
`dot1q.cpp`: an Ethernet frame with its IPv4 header, the messages, segments and datagrams that go into
it, and the 802.1Q tag spliced into a finished frame. Overrides are applied where the source applies them, before or
after the checksum. The second section says what is left of a header once its checksum is in place, when
nothing is overridden.
-/

namespace Tc8Harness.Stimulus

open BigEndian Wire Someip

/-! ## Builders -/

def kEthBroadcast : Vector UInt8 6 := Vector.replicate 6 0xFF

structure Ipv4FrameSpec where
  srcMac : Vector UInt8 6 := Vector.replicate 6 0
  dstMac : Vector UInt8 6 := kEthBroadcast
  srcIp : UInt32 := 0
  dstIp : UInt32 := 0
  ttl : UInt8 := 64
  ipId : UInt16 := 0x4242
  ipProtocol : UInt8 := 0x01
  ipOptions : List UInt8 := []
  moreFragments : Bool := false
  fragmentOffset : UInt16 := 0
  versionOverride : Option UInt8 := none
  ihlOverride : Option UInt8 := none
  totalLengthOverride : Option UInt16 := none
  corruptIpChecksum : Bool := false
  deriving DecidableEq, Repr

/-- What takes a length to the next multiple of four. -/
def optionsPadding (rawLen : Nat) : Nat := (4 - rawLen % 4) % 4

namespace Ipv4FrameSpec

variable (spec : Ipv4FrameSpec)

/-- The options with the EOL bytes that fill them up. -/
def paddedOptions : List UInt8 :=
  spec.ipOptions ++ List.replicate (optionsPadding spec.ipOptions.length) 0x00

def ipHeaderLen : Nat := 20 + spec.paddedOptions.length

/-- Bytes 6 and 7 of the header: MF and the low 13 bits of the offset. -/
def flagsAndOffset : List UInt8 :=
  let offsetMasked := spec.fragmentOffset &&& 0x1FFF
  [(if spec.moreFragments then (0x20 : UInt8) else 0) ||| ((offsetMasked >>> 8) &&& 0x1F).toUInt8,
    (offsetMasked &&& 0xFF).toUInt8]

/-- The header, with a placeholder for the checksum to begin with. -/
def ipHdr (ipPayloadLen : Nat) (checksum : UInt16 := 0x0000) : List UInt8 :=
  let ihlWords := UInt8.ofNat (spec.ipHeaderLen / 4)
  ([0x40 ||| (ihlWords &&& 0x0F), 0x00] ++
    (putBe16 (UInt16.ofNat (spec.ipHeaderLen + ipPayloadLen)) ++
      (putBe16 spec.ipId ++ (spec.flagsAndOffset ++ [spec.ttl, spec.ipProtocol])))) ++
    (putBe16 checksum ++ (bytes32 spec.srcIp ++ (bytes32 spec.dstIp ++ spec.paddedOptions)))

def applyOverrides (hdr : List UInt8) : List UInt8 :=
  let hdr := match spec.versionOverride with
    | none => hdr
    | some version => hdr.set 0 (((version &&& 0x0F) <<< 4) ||| (hdr.getD 0 0 &&& 0x0F))
  let hdr := match spec.ihlOverride with
    | none => hdr
    | some ihl => hdr.set 0 ((hdr.getD 0 0 &&& 0xF0) ||| (ihl &&& 0x0F))
  match spec.totalLengthOverride with
  | none => hdr
  | some totalLength => writeBe16 hdr 2 totalLength

end Ipv4FrameSpec

def buildIpv4Frame (spec : Ipv4FrameSpec) (ipPayload : List UInt8) : List UInt8 :=
  let ipHdr := spec.applyOverrides (spec.ipHdr ipPayload.length)
  let ipCsum := inetChecksum ipHdr
  let ipCsum := if spec.corruptIpChecksum then ipCsum ^^^ 0x0001 else ipCsum
  spec.dstMac.toList ++ (spec.srcMac.toList ++ (putBe16 kEtherTypeIpv4 ++
    (writeBe16 ipHdr 10 ipCsum ++ ipPayload)))

def kIcmpTypeTimestampRequest : UInt8 := 13
def kIcmpCodeTimestampRequest : UInt8 := 0

/-- The timestamp request, with a placeholder for the checksum to begin with. -/
def timestampRequest (type code : UInt8) (id seq : UInt16) (originate receive transmit : UInt32)
    (checksum : UInt16 := 0x0000) : List UInt8 :=
  [type, code] ++ (putBe16 checksum ++ (putBe16 id ++ (putBe16 seq ++
    (putBe32 originate ++ (putBe32 receive ++ putBe32 transmit)))))

def buildIcmpTimestampRequestBody (id seq : UInt16)
    (originateTimestamp receiveTimestamp transmitTimestamp : UInt32)
    (typeOverride codeOverride : Option UInt8 := none) (corruptChecksum : Bool := false) :
    List UInt8 :=
  let icmp := timestampRequest (typeOverride.getD kIcmpTypeTimestampRequest)
    (codeOverride.getD kIcmpCodeTimestampRequest) id seq originateTimestamp receiveTimestamp
    transmitTimestamp
  let icmpCsum := inetChecksum icmp
  writeBe16 icmp 2 (if corruptChecksum then icmpCsum ^^^ 0x0001 else icmpCsum)

structure TcpSegmentSpec where
  srcPort : UInt16 := 0
  dstPort : UInt16 := 0
  seqNum : UInt32 := 0
  ackNum : UInt32 := 0
  flags : UInt8 := 0
  window : UInt16 := 65535
  urgentPointer : UInt16 := 0
  options : List UInt8 := []
  payload : List UInt8 := []
  corruptTcpChecksum : Bool := false
  forceZeroTcpChecksum : Bool := false
  reservedOverride : Option UInt8 := none
  dataOffsetOverride : Option UInt8 := none
  deriving DecidableEq, Repr

namespace TcpSegmentSpec

variable (spec : TcpSegmentSpec)

/-- The options with the NOP bytes the loop adds. -/
def opts : List UInt8 := spec.options ++ List.replicate (optionsPadding spec.options.length) 0x01

/-- Data Offset and the reserved nibble. -/
def offsetByte : UInt8 :=
  let encodedDoff := spec.dataOffsetOverride.getD (UInt8.ofNat ((20 + spec.opts.length) / 4))
  let encodedReserved := (spec.reservedOverride.map (· &&& 0x0F)).getD 0x00
  ((encodedDoff <<< 4) &&& 0xF0) ||| encodedReserved

/-- The segment, with a placeholder for the checksum to begin with. -/
def seg (checksum : UInt16 := 0x0000) : List UInt8 :=
  (putBe16 spec.srcPort ++ (putBe16 spec.dstPort ++ (putBe32 spec.seqNum ++ (putBe32 spec.ackNum ++
    ([spec.offsetByte, spec.flags] ++ putBe16 spec.window))))) ++
    (putBe16 checksum ++ (putBe16 spec.urgentPointer ++ (spec.opts ++ spec.payload)))

end TcpSegmentSpec

/-- The 12-byte pseudo-header of a transport checksum. -/
def pseudoHeader (srcIpBe dstIpBe : UInt32) (protocol : UInt8) (length : UInt16) : List UInt8 :=
  bytes32 srcIpBe ++ (bytes32 dstIpBe ++ ([0x00, protocol] ++ putBe16 length))

def buildTcpSegment (srcIpBe dstIpBe : UInt32) (spec : TcpSegmentSpec) : List UInt8 :=
  let tcpLength := UInt16.ofNat (20 + spec.opts.length + spec.payload.length)
  let csum := inetChecksum (pseudoHeader srcIpBe dstIpBe 0x06 tcpLength ++ spec.seg)
  let csum := if spec.corruptTcpChecksum then csum ^^^ 0x0001 else csum
  let csum := if spec.forceZeroTcpChecksum then 0x0000 else csum
  writeBe16 spec.seg 16 csum

structure UdpDatagramOverrides where
  lengthField : Option UInt16 := none
  checksumField : Option UInt16 := none
  truncateTo : Option Nat := none
  deriving DecidableEq, Repr

/-- The datagram, with a placeholder for the checksum to begin with. -/
def udpPlain (srcPort dstPort : UInt16) (payload : List UInt8) (checksum : UInt16 := 0x0000) :
    List UInt8 :=
  (putBe16 srcPort ++ (putBe16 dstPort ++ putBe16 (UInt16.ofNat (8 + payload.length)))) ++
    (putBe16 checksum ++ payload)

def buildUdpDatagramWithOverrides (srcIpBe dstIpBe : UInt32) (srcPort dstPort : UInt16)
    (payload : List UInt8) (overrides : UdpDatagramOverrides) : List UInt8 :=
  let udpLength := UInt16.ofNat (8 + payload.length)
  let udp := udpPlain srcPort dstPort payload
  let csum := inetChecksum (pseudoHeader srcIpBe dstIpBe 0x11 udpLength ++ udp)
  let udp := writeBe16 udp 6 (if csum = 0x0000 then 0xFFFF else csum)
  let udp := match overrides.lengthField with
    | none => udp
    | some v => writeBe16 udp 4 v
  let udp := match overrides.checksumField with
    | none => udp
    | some v => writeBe16 udp 6 v
  match overrides.truncateTo with
  | none => udp
  | some t => udp.take t

def buildUdpDatagram (srcIpBe dstIpBe : UInt32) (srcPort dstPort : UInt16) (payload : List UInt8) :
    List UInt8 :=
  buildUdpDatagramWithOverrides srcIpBe dstIpBe srcPort dstPort payload {}

def kDot1QTpid : UInt16 := 0x8100

/-- PCP, DEI and VID in one halfword. -/
def dot1QTci (pcp : UInt8) (dei : Bool) (vid : UInt16) : UInt16 :=
  ((pcp.toUInt16 &&& 0x7) <<< 13) ||| ((if dei then (1 : UInt16) else 0) <<< 12) ||| (vid &&& 0x0FFF)

/-- The source aborts on a buffer with no Ethernet header. -/
def withDot1QTag (untagged : List UInt8) (pcp : UInt8) (dei : Bool) (vid : UInt16)
    (tpid : UInt16 := kDot1QTpid) : Option (List UInt8) :=
  if untagged.length < 14 then none
  else
    some (untagged.take 12 ++ (putBe16 tpid ++ (putBe16 (dot1QTci pcp dei vid) ++ untagged.drop 12)))

/-! ## The checksum in place -/

/-- Nothing of the header is overridden. The checksum may still be a wrong one. -/
structure Ipv4FrameSpec.Plain (spec : Ipv4FrameSpec) : Prop where
  version : spec.versionOverride = none
  ihl : spec.ihlOverride = none
  totalLength : spec.totalLengthOverride = none

structure TcpSegmentSpec.Plain (spec : TcpSegmentSpec) : Prop where
  reserved : spec.reservedOverride = none
  dataOffset : spec.dataOffsetOverride = none

theorem applyOverrides_plain {spec : Ipv4FrameSpec} (h : spec.Plain) (hdr : List UInt8) :
    spec.applyOverrides hdr = hdr := by
  simp only [Ipv4FrameSpec.applyOverrides, h.version, h.ihl, h.totalLength]

theorem length_ipHdr (spec : Ipv4FrameSpec) (n : Nat) (checksum : UInt16) :
    (spec.ipHdr n checksum).length = spec.ipHeaderLen := by
  simp [Ipv4FrameSpec.ipHdr, Ipv4FrameSpec.flagsAndOffset, Ipv4FrameSpec.ipHeaderLen]
  omega

theorem length_seg (spec : TcpSegmentSpec) (checksum : UInt16) :
    (spec.seg checksum).length = 20 + spec.opts.length + spec.payload.length := by
  simp [TcpSegmentSpec.seg]
  omega

theorem writeBe16_ipHdr (spec : Ipv4FrameSpec) (n : Nat) (checksum : UInt16) :
    writeBe16 (spec.ipHdr n) 10 checksum = spec.ipHdr n checksum :=
  writeBe16_append _ _ _ _ (by simp [Ipv4FrameSpec.flagsAndOffset])

theorem writeBe16_seg (spec : TcpSegmentSpec) (checksum : UInt16) :
    writeBe16 spec.seg 16 checksum = spec.seg checksum :=
  writeBe16_append _ _ _ _ (by simp)

theorem writeBe16_udpPlain (srcPort dstPort : UInt16) (payload : List UInt8) (checksum : UInt16) :
    writeBe16 (udpPlain srcPort dstPort payload) 6 checksum =
      udpPlain srcPort dstPort payload checksum :=
  writeBe16_append _ _ _ _ (by simp)

end Tc8Harness.Stimulus
