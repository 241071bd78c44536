import Tc8Harness.Lib.BigEndian

/-!
# The wire decoders

`include/tc8/wire/`: Ethernet II with at most one 802.1Q tag, ARP, IPv4 and TCP with their options,
ICMPv4 and UDP. Each reads what its standard allows and answers `none` only where the header cannot be
located. A pointer and a length are one list of bytes; a payload pointer that may be null is an
`Option`. A word copied with `memcpy` keeps its bytes, so its value is the little-endian one of the
hosts the harness runs on.
-/

namespace Tc8Harness.Wire

open BigEndian

/-- `readBe(p + off, size)`. -/
def readBe (p : List UInt8) (off size : Nat) : Nat := ofBE ((p.drop off).take size)

def readBe16 (p : List UInt8) (off : Nat) : UInt16 := UInt16.ofNat (readBe p off 2)

def readBe32 (p : List UInt8) (off : Nat) : UInt32 := UInt32.ofNat (readBe p off 4)

/-- `memcpy` of four bytes into a word. -/
def copy32 (p : List UInt8) (off : Nat) : UInt32 :=
  UInt32.ofNat (ofBE ((p.drop off).take 4).reverse)

/-- The four bytes of a word in memory. -/
def bytes32 (v : UInt32) : List UInt8 := (toBE 4 v.toNat).reverse

/-! ## Ethernet and ARP -/

def kEthernetHeaderLen : Nat := 14
def kDot1QTagLen : Nat := 4
def kEtherTypeIpv4 : UInt16 := 0x0800
def kEtherTypeArp : UInt16 := 0x0806
def kEtherTypeDot1Q : UInt16 := 0x8100

structure Dot1QFields where
  pcp : UInt8
  dei : Bool
  vid : UInt16
  deriving DecidableEq

structure EthernetFrame where
  dst : List UInt8
  src : List UInt8
  etherType : UInt16
  dot1q : Option Dot1QFields
  payload : List UInt8
  deriving DecidableEq

def decodeEthernet (p : List UInt8) : Option EthernetFrame :=
  if p.length < kEthernetHeaderLen then none
  else
    let dst := p.take 6
    let src := (p.drop 6).take 6
    let etherType := readBe16 p 12
    if etherType = kEtherTypeDot1Q then
      if p.length < kEthernetHeaderLen + kDot1QTagLen then none
      else
        let tci := readBe16 p 14
        some
          { dst := dst
            src := src
            etherType := readBe16 p 16
            dot1q := some
              { pcp := (tci >>> 13).toUInt8
                dei := (tci >>> 12) &&& 1 != 0
                vid := tci &&& 0x0FFF }
            payload := p.drop (kEthernetHeaderLen + kDot1QTagLen) }
    else
      some
        { dst := dst
          src := src
          etherType := etherType
          dot1q := none
          payload := p.drop kEthernetHeaderLen }

def kArpEthernetIpv4Len : Nat := 28

structure ArpPacket where
  hwType : UInt16
  protoType : UInt16
  hwAddrLen : UInt8
  protoAddrLen : UInt8
  opcode : UInt16
  senderHw : List UInt8
  senderProtoBe : UInt32
  targetHw : List UInt8
  targetProtoBe : UInt32
  deriving DecidableEq

/-- The addresses stand at the offsets of the 28-byte layout; the two length fields are reported and
move nothing. -/
def decodeArp (p : List UInt8) : Option ArpPacket :=
  if p.length < kArpEthernetIpv4Len then none
  else
    some
      { hwType := readBe16 p 0
        protoType := readBe16 p 2
        hwAddrLen := p.getD 4 0
        protoAddrLen := p.getD 5 0
        opcode := readBe16 p 6
        senderHw := (p.drop 8).take 6
        senderProtoBe := copy32 p 14
        targetHw := (p.drop 18).take 6
        targetProtoBe := copy32 p 24 }

/-! ## IPv4 -/

def kIpv4FixedHeaderLen : Nat := 20
def kIpv4OptEndOfList : UInt8 := 0
def kIpv4OptNoOperation : UInt8 := 1

structure Ipv4Header where
  version : UInt8
  ihl : UInt8
  tos : UInt8
  totalLength : UInt16
  identification : UInt16
  flags : UInt8
  fragmentOffset : UInt16
  ttl : UInt8
  protocol : UInt8
  headerChecksum : UInt16
  srcBe : UInt32
  dstBe : UInt32
  optionsLen : Nat
  endOfListAt : Option Nat
  paddingNonzero : Bool
  optionsMalformed : Bool
  deriving DecidableEq

def Ipv4Header.headerLen (h : Ipv4Header) : Nat := h.ihl.toNat * 4

/-- The options area of the header read at `p`. -/
def Ipv4Header.optionsArea (h : Ipv4Header) (p : List UInt8) : List UInt8 :=
  (p.drop kIpv4FixedHeaderLen).take h.optionsLen

/-- What the walk over the options area found. -/
structure Ipv4Options where
  endOfListAt : Option Nat := none
  paddingNonzero : Bool := false
  optionsMalformed : Bool := false

/-- The walk over the options of the header `p`, from `at_` to `end_`. Every step moves on by at least
one byte, so `end_` steps are enough. -/
def walkIpv4Options (p : List UInt8) (end_ : Nat) : Nat → Nat → Ipv4Options
  | 0, _ => {}
  | steps + 1, at_ =>
    if at_ ≥ end_ then {}
    else if p.getD at_ 0 = kIpv4OptEndOfList then
      { endOfListAt := some at_
        paddingNonzero := ((p.take end_).drop (at_ + 1)).any (· != 0) }
    else if p.getD at_ 0 = kIpv4OptNoOperation then walkIpv4Options p end_ steps (at_ + 1)
    else if at_ + 1 ≥ end_ then { optionsMalformed := true }
    else
      let len := (p.getD (at_ + 1) 0).toNat
      if len < 2 ∨ at_ + len > end_ then { optionsMalformed := true }
      else walkIpv4Options p end_ steps (at_ + len)

def decodeIpv4Header (p : List UInt8) : Option Ipv4Header :=
  if p.length < kIpv4FixedHeaderLen then none
  else
    let ihl := p.getD 0 0 &&& 0x0F
    let headerLen := ihl.toNat * 4
    if headerLen < kIpv4FixedHeaderLen ∨ headerLen > p.length then none
    else
      let opts := walkIpv4Options p headerLen headerLen kIpv4FixedHeaderLen
      some
        { version := p.getD 0 0 >>> 4
          ihl := ihl
          tos := p.getD 1 0
          totalLength := readBe16 p 2
          identification := readBe16 p 4
          flags := p.getD 6 0 >>> 5
          fragmentOffset := readBe16 p 6 &&& 0x1FFF
          ttl := p.getD 8 0
          protocol := p.getD 9 0
          headerChecksum := readBe16 p 10
          srcBe := copy32 p 12
          dstBe := copy32 p 16
          optionsLen := headerLen - kIpv4FixedHeaderLen
          endOfListAt := opts.endOfListAt
          paddingNonzero := opts.paddingNonzero
          optionsMalformed := opts.optionsMalformed }

/-- A fragment: More-Fragments set, or an offset. -/
def Ipv4Header.fragmented (h : Ipv4Header) : Bool :=
  h.flags &&& 0x1 != 0 || h.fragmentOffset != 0

/-- How many bytes of the datagram's payload arrived. -/
def ipv4PayloadLen (ip : Ipv4Header) (arrived : Nat) : Nat :=
  let afterHeader := arrived - ip.headerLen
  if ip.totalLength.toNat < ip.headerLen then afterHeader
  else min (ip.totalLength.toNat - ip.headerLen) afterHeader

/-! ## ICMPv4 and UDP -/

def kIcmpHeaderLen : Nat := 8
def kIcmpTimestamp : UInt8 := 13
def kIcmpTimestampReply : UInt8 := 14
def kIcmpAddressMaskRequest : UInt8 := 17
def kIcmpAddressMaskReply : UInt8 := 18

structure Icmpv4Message where
  type : UInt8
  code : UInt8
  checksum : UInt16
  restOfHeader : UInt32
  originateTimestamp : UInt32
  receiveTimestamp : UInt32
  transmitTimestamp : UInt32
  payload : Option (List UInt8)
  deriving DecidableEq

def icmpFixedLen (type : UInt8) : Nat :=
  if type = kIcmpTimestamp ∨ type = kIcmpTimestampReply then kIcmpHeaderLen + 12
  else if type = kIcmpAddressMaskRequest ∨ type = kIcmpAddressMaskReply then kIcmpHeaderLen + 4
  else kIcmpHeaderLen

/-- What follows a fixed part, when anything does. -/
def rest (p : List UInt8) (fixed : Nat) : Option (List UInt8) :=
  if p.length > fixed then some (p.drop fixed) else none

theorem getD_rest (p : List UInt8) (fixed : Nat) : (rest p fixed).getD [] = p.drop fixed := by
  unfold rest
  split
  · rfl
  · next h =>
    rw [List.drop_eq_nil_of_le (Nat.le_of_not_lt h)]
    rfl

def decodeIcmpv4 (p : List UInt8) : Option Icmpv4Message :=
  if p.length < kIcmpHeaderLen then none
  else
    let type := p.getD 0 0
    let fixed := icmpFixedLen type
    if p.length < fixed then none
    else
      let stamped := type = kIcmpTimestamp ∨ type = kIcmpTimestampReply
      some
        { type := type
          code := p.getD 1 0
          checksum := readBe16 p 2
          restOfHeader := readBe32 p 4
          originateTimestamp := if stamped then readBe32 p 8 else 0
          receiveTimestamp := if stamped then readBe32 p 12 else 0
          transmitTimestamp := if stamped then readBe32 p 16 else 0
          payload := rest p fixed }

def kUdpHeaderLen : Nat := 8

structure UdpDatagram where
  srcPort : UInt16
  dstPort : UInt16
  length : UInt16
  checksum : UInt16
  payload : Option (List UInt8)
  deriving DecidableEq

def decodeUdp (p : List UInt8) : Option UdpDatagram :=
  if p.length < kUdpHeaderLen then none
  else
    some
      { srcPort := readBe16 p 0
        dstPort := readBe16 p 2
        length := readBe16 p 4
        checksum := readBe16 p 6
        payload := rest p kUdpHeaderLen }

/-! ## TCP -/

def kTcpFixedHeaderLen : Nat := 20
def kTcpOptEndOfList : UInt8 := 0
def kTcpOptNoOperation : UInt8 := 1
def kTcpOptMss : UInt8 := 2

structure TcpSegment where
  srcPort : UInt16
  dstPort : UInt16
  seq : UInt32
  ack : UInt32
  dataOffset : UInt8
  reservedBits : UInt8
  flags : UInt8
  window : UInt16
  checksum : UInt16
  urgentPointer : UInt16
  options : Option (List UInt8)
  mss : Option UInt16
  optionsMalformed : Bool
  payload : Option (List UInt8)
  deriving DecidableEq

/-- The walk over the TCP options, like that over the IPv4 ones: the MSS of the last well-formed MSS
option, and whether an option ran past the header. -/
def walkTcpOptions (p : List UInt8) (headerLen : Nat) :
    Nat → Nat → Option UInt16 → Option UInt16 × Bool
  | 0, _, mss => (mss, false)
  | steps + 1, at_, mss =>
    if at_ ≥ headerLen then (mss, false)
    else if p.getD at_ 0 = kTcpOptEndOfList then (mss, false)
    else if p.getD at_ 0 = kTcpOptNoOperation then walkTcpOptions p headerLen steps (at_ + 1) mss
    else if at_ + 1 ≥ headerLen then (mss, true)
    else
      let len := (p.getD (at_ + 1) 0).toNat
      if len < 2 ∨ at_ + len > headerLen then (mss, true)
      else
        walkTcpOptions p headerLen steps (at_ + len)
          (if p.getD at_ 0 = kTcpOptMss ∧ len = 4 then some (readBe16 p (at_ + 2)) else mss)

def decodeTcp (p : List UInt8) : Option TcpSegment :=
  if p.length < kTcpFixedHeaderLen then none
  else
    let dataOffset := p.getD 12 0 >>> 4
    let headerLen := dataOffset.toNat * 4
    if headerLen < kTcpFixedHeaderLen ∨ headerLen > p.length then none
    else
      let opts := walkTcpOptions p headerLen headerLen kTcpFixedHeaderLen none
      some
        { srcPort := readBe16 p 0
          dstPort := readBe16 p 2
          seq := readBe32 p 4
          ack := readBe32 p 8
          dataOffset := dataOffset
          reservedBits := p.getD 12 0 &&& 0x0F
          flags := p.getD 13 0
          window := readBe16 p 14
          checksum := readBe16 p 16
          urgentPointer := readBe16 p 18
          options := rest (p.take headerLen) kTcpFixedHeaderLen
          mss := opts.1
          optionsMalformed := opts.2
          payload := rest p headerLen }

/-- The big-endian 16-bit words of a buffer, an odd last byte padded with zero, summed. -/
def sum16 : List UInt8 → Nat
  | [] => 0
  | [a] => a.toNat * 256
  | a :: b :: rest => a.toNat * 256 + b.toNat + sum16 rest

/-- The end-around carry: fold the sum until it fits 16 bits. -/
def fold16 (sum : Nat) : Nat :=
  if sum / 65536 = 0 then sum else fold16 (sum % 65536 + sum / 65536)
termination_by sum
decreasing_by omega

/-- The TCP checksum over the pseudo-header and the segment. The accumulator has 32 bits. -/
def tcpChecksum (srcBe dstBe : UInt32) (tcp : List UInt8) : Nat :=
  65535 - fold16 ((sum16 (bytes32 srcBe) + sum16 (bytes32 dstBe) + 6 + tcp.length % 65536 +
    sum16 tcp) % 2 ^ 32)

def tcpChecksumValid (srcBe dstBe : UInt32) (tcp : List UInt8) : Bool :=
  tcpChecksum srcBe dstBe tcp == 0

end Tc8Harness.Wire
