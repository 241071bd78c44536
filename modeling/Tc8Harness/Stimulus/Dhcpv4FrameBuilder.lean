import Tc8Harness.Dissect.Pipeline
import Tc8Harness.Lib.ByteBuffer
import Tc8Harness.Stimulus.FrameBuilder

/-!
# The replies of the emulated DHCP server

`buildDhcpv4Reply` of `src/stimulus/dhcpv4_frame_builder.cpp`. The lengths are computed before anything is
written, and the frame is allocated in zeros; so the bytes of a field that is not written are zero, and the
padding of the options is what the cursor skips.
-/

namespace Tc8Harness.Stimulus

open BigEndian Wire Someip Dissect

def kBootpFixedLen : Nat := 240

def kTesterInjectedMac : Vector UInt8 6 := #v[0x02, 0x00, 0x00, 0x00, 0x00, 0xA1]

structure Dhcpv4ReplySpec where
  ethDst : Vector UInt8 6 := kEthBroadcast
  ethSrc : Vector UInt8 6 := kTesterInjectedMac
  srcIpBe : UInt32 := 0
  dstIpBe : UInt32 := 0xFFFFFFFF
  /-- In host order. -/
  xid : UInt32 := 0
  chaddr : Vector UInt8 6 := Vector.replicate 6 0
  messageType : UInt8 := 2
  yiaddrBe : UInt32 := 0
  serverIdBe : UInt32 := 0
  leaseTimeSeconds : UInt32 := 0
  subnetMaskBe : UInt32 := 0
  /-- Zero pads nothing. -/
  ipDatagramTotalBytes : UInt16 := 0
  option52Overload : UInt8 := 0
  snamePayload : List UInt8 := []
  filePayload : List UInt8 := []
  deriving DecidableEq, Repr

namespace Dhcpv4ReplySpec

variable (spec : Dhcpv4ReplySpec)

def isNak : Bool := spec.messageType == 6

/-! What the source puts in the place of the fields a NAK must not carry. -/

def wireYiaddrBe : UInt32 := if spec.isNak then 0 else spec.yiaddrBe

def wireLeaseTimeSeconds : UInt32 := if spec.isNak then 0 else spec.leaseTimeSeconds

def wireSubnetMaskBe : UInt32 := if spec.isNak then 0 else spec.subnetMaskBe

/-! ## Lengths -/

/-- The length of the options without padding. -/
def naturalOptsLen : Nat :=
  3 + 6 + 1 + (if spec.wireLeaseTimeSeconds ≠ 0 then 6 else 0) +
    (if spec.wireSubnetMaskBe ≠ 0 then 6 else 0) + (if spec.option52Overload ≠ 0 then 3 else 0)

def padCount : Nat :=
  if spec.ipDatagramTotalBytes ≠ 0 then
    let targetIpLen := spec.ipDatagramTotalBytes.toNat
    let naturalIpLen := 20 + 8 + kBootpFixedLen + spec.naturalOptsLen
    if targetIpLen > naturalIpLen then targetIpLen - naturalIpLen else 0
  else 0

def optsLen : Nat := spec.naturalOptsLen + spec.padCount

def udpLen : Nat := 8 + kBootpFixedLen + spec.optsLen

def ipLen : Nat := 20 + spec.udpLen

/-! ## The frame -/

/-- The IPv4 header, with a placeholder for the checksum to begin with. -/
def ip (checksum : UInt16 := 0) : List UInt8 :=
  ([0x45, 0x00] ++ (putBe16 (UInt16.ofNat spec.ipLen) ++ (putBe16 0x0000 ++ (putBe16 0x0000 ++
    [64, 0x11])))) ++
    (putBe16 checksum ++ (bytes32 spec.srcIpBe ++ bytes32 spec.dstIpBe))

/-- A payload in a field of a fixed length: what is too long is cut, the rest stays zero. -/
def sname : List UInt8 := ByteBuffer.resize spec.snamePayload 64

@[inherit_doc sname]
def file : List UInt8 := ByteBuffer.resize spec.filePayload 128

/-- `secs`, `flags` and `ciaddr` stay zero, as do `siaddr`, `giaddr` and the rest of the `chaddr` field. -/
def bootpFixed : List UInt8 :=
  [2, 1, 6, 0] ++ (putBe32 spec.xid ++ (List.replicate 8 0 ++ (bytes32 spec.wireYiaddrBe ++
    (List.replicate 8 0 ++ (spec.chaddr.toList ++ (List.replicate 10 0 ++ (spec.sname ++ (spec.file ++
      [0x63, 0x82, 0x53, 0x63]))))))))

def option51 : List UInt8 :=
  if spec.wireLeaseTimeSeconds ≠ 0 then [51, 4] ++ putBe32 spec.wireLeaseTimeSeconds else []

def option1 : List UInt8 :=
  if spec.wireSubnetMaskBe ≠ 0 then [1, 4] ++ bytes32 spec.wireSubnetMaskBe else []

def option52 : List UInt8 := if spec.option52Overload ≠ 0 then [52, 1, spec.option52Overload] else []

def options : List UInt8 :=
  [53, 1, spec.messageType] ++ ([54, 4] ++ bytes32 spec.serverIdBe ++ (spec.option51 ++ (spec.option1 ++
    (spec.option52 ++ (List.replicate spec.padCount 0 ++ [0xFF])))))

/-- The UDP datagram, with a placeholder for the checksum to begin with. -/
def udp (checksum : UInt16 := 0) : List UInt8 :=
  (putBe16 kDhcpServerPort ++ (putBe16 kDhcpClientPort ++ putBe16 (UInt16.ofNat spec.udpLen))) ++
    (putBe16 checksum ++ (spec.bootpFixed ++ spec.options))

end Dhcpv4ReplySpec

def buildDhcpv4Reply (spec : Dhcpv4ReplySpec) : List UInt8 :=
  spec.ethDst.toList ++ (spec.ethSrc.toList ++ (putBe16 kEtherTypeIpv4 ++
    (writeBe16 spec.ip 10 (inetChecksum spec.ip) ++
      writeBe16 spec.udp 6 (udpChecksum spec.srcIpBe spec.dstIpBe spec.udp))))

/-! ## Lengths of what is written -/

namespace Dhcpv4ReplySpec

variable (spec : Dhcpv4ReplySpec)

/-- The options fill the length computed for them. -/
theorem length_options : spec.options.length = spec.optsLen := by
  unfold options option51 option1 option52 optsLen naturalOptsLen
  split <;> split <;> split <;> simp <;> omega

theorem length_bootpFixed : spec.bootpFixed.length = kBootpFixedLen := by
  simp [bootpFixed, sname, file, kBootpFixedLen]

theorem length_bootp : (spec.bootpFixed ++ spec.options).length = kBootpFixedLen + spec.optsLen := by
  rw [List.length_append, length_bootpFixed, length_options]

/-- Padding brings the datagram to the length asked for, when that is more than it has. -/
theorem ipLen_eq :
    spec.ipLen = max (20 + 8 + kBootpFixedLen + spec.naturalOptsLen) spec.ipDatagramTotalBytes.toNat := by
  unfold ipLen udpLen optsLen padCount
  dsimp only
  split
  · split <;> omega
  · next hzero =>
    rw [not_not.mp hzero]
    change _ = max _ 0
    omega

theorem naturalOptsLen_bounds : 10 ≤ spec.naturalOptsLen ∧ spec.naturalOptsLen ≤ 25 := by
  unfold naturalOptsLen
  split <;> split <;> split <;> decide

/-- No request takes the datagram past what its Total Length can say. -/
theorem ipLen_le : spec.ipLen ≤ 65535 := by
  have hnatural := spec.naturalOptsLen_bounds
  have hrequested := spec.ipDatagramTotalBytes.toNat_lt
  rw [ipLen_eq, kBootpFixedLen]
  omega

end Dhcpv4ReplySpec

end Tc8Harness.Stimulus
