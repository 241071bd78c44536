import Tc8Harness.Stimulus.FrameBuilder

/-!
# The messages of the DHCP client

`emitDhcpMessage` of `dut/dut_service/dhcpv4_client.cpp` and the helpers that call it: one BOOTREQUEST in
its Ethernet, IPv4 and UDP envelope. A flavor changes one field or option of the messages of its own
phase; the source decodes it first, into the values the frame is then written from, and so does the
model. The source writes into a zeroed buffer at rising offsets; here the pieces are appended, the
bytes it never writes being zeros.
-/

namespace Tc8Harness.Dut

open Wire Someip
open Stimulus (kEthBroadcast)

/-! ## Constants -/

def kBootRequest : UInt8 := 1
def kBootReply : UInt8 := 2

def kDhcpDiscover : UInt8 := 1
def kDhcpRequest : UInt8 := 3
def kDhcpDecline : UInt8 := 4

/-- The bytes of a BOOTP message up to its options. -/
def kBootpFixedLen : Nat := 240
def kUdpClientPort : UInt16 := 68
def kUdpServerPort : UInt16 := 67

def kLimitedBroadcastBe : UInt32 := 0xFFFFFFFF

/-- Network byte order on the little-endian DUT. -/
def htonl (v : UInt32) : UInt32 := copy32 (putBe32 v) 0

/-- 192.0.2.x, as the bytes stand in memory. -/
def sentinelBe (host : UInt32) : UInt32 :=
  (192 : UInt32) ||| ((0 : UInt32) <<< 8) ||| ((2 : UInt32) <<< 16) ||| (host <<< 24)

def kFaultSentinelDstBe : UInt32 := sentinelBe 1
def kFaultSentinelSrcBe : UInt32 := sentinelBe 2
def kFaultSentinelRenewingDstBe : UInt32 := sentinelBe 9
def kFaultSentinelCiaddrBe : UInt32 := sentinelBe 11
def kFaultSentinelOpt50Be : UInt32 := sentinelBe 50
def kFaultSentinelOpt54Be : UInt32 := sentinelBe 54
def kFaultSentinelRebindingDstBe : UInt32 := sentinelBe 12
def kFaultSentinelRequestSecs : UInt16 := 0x4242
def kFaultRequestXidFlipMask : UInt32 := 0xA5A5A5A5
def kFaultSentinelParamRequestByte : UInt8 := 0xFE
def kFaultChaddrFlipMask : UInt8 := 0xFF

def kParameterRequestList : List UInt8 := [1, 3, 6, 15]

/-! ## Phases and flavors -/

inductive DhcpPhase where
  | Discover
  | Selecting
  | Renewing
  | Rebinding
  | Decline
  deriving DecidableEq, Repr

inductive Dhcpv4ClientFlavor where
  | None
  | DiscoverMagicCookieCorrupt
  | DiscoverOmitMessageType
  | DiscoverReservedFlagsSet
  | DiscoverDstUnicast
  | DiscoverDropEnd
  | DiscoverSrcNonzero
  | RequestSrcNonzero
  | RequestDstUnicast
  | RequestCiaddrNonzero
  | RequestServerIdCorrupt
  | RequestRequestedIpCorrupt
  | ReacqRequestIncludeServerId
  | ReacqRequestIncludeRequestedIp
  | ReacqRequestCiaddrWrong
  | RenewingRequestDstWrong
  | RebindingDstUnicast
  | DeclineRequestedIpWrong
  | RequestSecsMismatch
  | RequestXidMismatch
  | RequestParamListMismatch
  | DiscoverCiaddrNonzero
  | DiscoverChaddrMismatch
  | RequestOmitMessageType
  deriving DecidableEq, Repr

structure DhcpEmitSpec where
  phase : DhcpPhase
  msgType : UInt8
  xidBe : UInt32
  l3SrcBe : UInt32
  l3DstBe : UInt32
  ciaddrBe : UInt32
  requestedAddrBe : UInt32
  serverIdBe : UInt32
  deriving DecidableEq, Repr

/-- The effective values a message is written from. -/
structure EmitFields where
  l3SrcBe : UInt32
  l3DstBe : UInt32
  ciaddrBe : UInt32
  xidBe : UInt32
  requestedAddrBe : UInt32
  serverIdBe : UInt32
  corruptMagicCookie : Bool := false
  omitMessageTypeOption : Bool := false
  setReservedFlagBit : Bool := false
  dropEndOption : Bool := false
  setRequestSecsMismatch : Bool := false
  mutateParamRequestList : Bool := false
  setDiscoverChaddrMismatch : Bool := false
  deriving DecidableEq, Repr

/-- What the spec asks for. -/
def DhcpEmitSpec.fields (spec : DhcpEmitSpec) : EmitFields :=
  { l3SrcBe := spec.l3SrcBe, l3DstBe := spec.l3DstBe, ciaddrBe := spec.ciaddrBe, xidBe := spec.xidBe
    requestedAddrBe := spec.requestedAddrBe, serverIdBe := spec.serverIdBe }

/-- The switch over the flavors. -/
def DhcpEmitSpec.flavored (spec : DhcpEmitSpec) (flavor : Dhcpv4ClientFlavor) : EmitFields :=
  let e := spec.fields
  let isDiscover : Bool := spec.phase = .Discover
  let isSelecting : Bool := spec.phase = .Selecting
  let isReacq : Bool := spec.phase = .Renewing ∨ spec.phase = .Rebinding
  let isRenewing : Bool := spec.phase = .Renewing
  match flavor with
  | .None => e
  | .DiscoverMagicCookieCorrupt => if isDiscover then { e with corruptMagicCookie := true } else e
  | .DiscoverOmitMessageType => if isDiscover then { e with omitMessageTypeOption := true } else e
  | .DiscoverReservedFlagsSet => if isDiscover then { e with setReservedFlagBit := true } else e
  | .DiscoverDstUnicast => if isDiscover then { e with l3DstBe := kFaultSentinelDstBe } else e
  | .DiscoverSrcNonzero => if isDiscover then { e with l3SrcBe := kFaultSentinelSrcBe } else e
  | .DiscoverDropEnd => if isDiscover then { e with dropEndOption := true } else e
  | .RequestSrcNonzero => if isSelecting then { e with l3SrcBe := kFaultSentinelSrcBe } else e
  | .RequestDstUnicast => if isSelecting then { e with l3DstBe := kFaultSentinelDstBe } else e
  | .RequestCiaddrNonzero =>
    if isSelecting then { e with ciaddrBe := spec.requestedAddrBe } else e
  | .RequestServerIdCorrupt =>
    if isSelecting then { e with serverIdBe := kFaultSentinelOpt54Be } else e
  | .RequestRequestedIpCorrupt =>
    if isSelecting then { e with requestedAddrBe := kFaultSentinelOpt50Be } else e
  | .ReacqRequestIncludeServerId =>
    if isReacq then { e with serverIdBe := kFaultSentinelOpt54Be } else e
  | .ReacqRequestIncludeRequestedIp =>
    if isReacq then { e with requestedAddrBe := kFaultSentinelOpt50Be } else e
  | .ReacqRequestCiaddrWrong => if isReacq then { e with ciaddrBe := kFaultSentinelCiaddrBe } else e
  | .RenewingRequestDstWrong =>
    if isRenewing then { e with l3DstBe := kFaultSentinelRenewingDstBe } else e
  | .RebindingDstUnicast =>
    if spec.phase = .Rebinding then { e with l3DstBe := kFaultSentinelRebindingDstBe } else e
  | .DeclineRequestedIpWrong =>
    if spec.phase = .Decline then { e with requestedAddrBe := kFaultSentinelOpt50Be } else e
  | .RequestSecsMismatch => if isSelecting then { e with setRequestSecsMismatch := true } else e
  | .RequestXidMismatch =>
    if isSelecting then { e with xidBe := e.xidBe ^^^ kFaultRequestXidFlipMask } else e
  | .RequestParamListMismatch => if isSelecting then { e with mutateParamRequestList := true } else e
  | .DiscoverCiaddrNonzero => if isDiscover then { e with ciaddrBe := kFaultSentinelCiaddrBe } else e
  | .DiscoverChaddrMismatch => if isDiscover then { e with setDiscoverChaddrMismatch := true } else e
  | .RequestOmitMessageType => if isSelecting then { e with omitMessageTypeOption := true } else e

/-! ## The frame -/

/-- `yiaddr`, `siaddr` and `giaddr` stay zero. -/
def otherAddrs : List UInt8 := List.replicate 12 0

/-- The rest of the `chaddr` field, `sname` and `file` stay zero. -/
def unwritten : List UInt8 := List.replicate 202 0

/-- The identity a message is sent under: the interface's MAC, and the one an override puts into
`chaddr` instead. -/
structure Sender where
  dutMac : Vector UInt8 6
  chaddrOverride : Option (Vector UInt8 6) := none
  deriving DecidableEq, Repr

namespace EmitFields

variable (e : EmitFields) (sender : Sender) (msgType : UInt8)

/-- Option 53, or the PAD bytes in its place. -/
def option53 : List UInt8 :=
  if e.omitMessageTypeOption then [0x00, 0x00, 0x00] else [53, 1, msgType]

def option50 : List UInt8 :=
  if e.requestedAddrBe ≠ 0 then [50, 4] ++ bytes32 e.requestedAddrBe else []

def option54 : List UInt8 := if e.serverIdBe ≠ 0 then [54, 4] ++ bytes32 e.serverIdBe else []

def option55 : List UInt8 :=
  [55, UInt8.ofNat kParameterRequestList.length] ++
    if e.mutateParamRequestList then
      kParameterRequestList.set 0 kFaultSentinelParamRequestByte
    else kParameterRequestList

def endOption : List UInt8 := [if e.dropEndOption then 0x00 else 0xFF]

def options : List UInt8 :=
  e.option53 msgType ++ (e.option50 ++ (e.option54 ++ (e.option55 ++ e.endOption)))

def secs : List UInt8 :=
  if e.setRequestSecsMismatch then putBe16 kFaultSentinelRequestSecs else [0, 0]

def flags : List UInt8 := [0, if e.setReservedFlagBit then 0x02 else 0]

def chaddr : List UInt8 :=
  let mac := (sender.chaddrOverride.getD sender.dutMac).toList
  if e.setDiscoverChaddrMismatch then mac.set 0 (mac.getD 0 0 ^^^ kFaultChaddrFlipMask) else mac

def cookie : List UInt8 := [if e.corruptMagicCookie then 0x00 else 0x63, 0x82, 0x53, 0x63]

def bootp : List UInt8 :=
  [kBootRequest, 1, 6, 0] ++ (bytes32 e.xidBe ++ (e.secs ++ (e.flags ++ (bytes32 e.ciaddrBe ++
    (otherAddrs ++ (e.chaddr sender ++ (unwritten ++ (e.cookie ++ e.options msgType))))))))

/-- The length the source computes before it writes: every option but 50 and 54 is counted always. -/
def optsLen : Nat :=
  3 + (if e.requestedAddrBe ≠ 0 then 6 else 0) + (if e.serverIdBe ≠ 0 then 6 else 0) +
    (2 + kParameterRequestList.length) + 1

def udpLen : Nat := 8 + (kBootpFixedLen + e.optsLen)

def ip4Len : Nat := 20 + e.udpLen

/-- The UDP datagram, with a placeholder for the checksum to begin with. -/
def udp (checksum : UInt16 := 0) : List UInt8 :=
  (putBe16 kUdpClientPort ++ (putBe16 kUdpServerPort ++ putBe16 (UInt16.ofNat e.udpLen))) ++
    (putBe16 checksum ++ e.bootp sender msgType)

/-- The IPv4 header, with a placeholder for the checksum to begin with. -/
def ip (checksum : UInt16 := 0) : List UInt8 :=
  ([0x45, 0x00] ++ (putBe16 (UInt16.ofNat e.ip4Len) ++ (putBe16 0x0000 ++ (putBe16 0x0000 ++
    [64, 0x11])))) ++
    (putBe16 checksum ++ (bytes32 e.l3SrcBe ++ bytes32 e.l3DstBe))

def ipChecksum : UInt16 := inetChecksum e.ip

def udpCsum : UInt16 := udpChecksum e.l3SrcBe e.l3DstBe (e.udp sender msgType)

def frame : List UInt8 :=
  kEthBroadcast.toList ++ (sender.dutMac.toList ++ (putBe16 kEtherTypeIpv4 ++
    (writeBe16 e.ip 10 e.ipChecksum ++
      writeBe16 (e.udp sender msgType) 6 (e.udpCsum sender msgType))))

end EmitFields

/-- The bytes of the buffer the frame is written into. -/
def kFrameBufferLen : Nat := 14 + 20 + 8 + 300

/-- `none` where the frame would not fit the buffer and nothing is sent. -/
def emitDhcpMessage (flavor : Dhcpv4ClientFlavor) (sender : Sender) (spec : DhcpEmitSpec) :
    Option (List UInt8) :=
  let e := spec.flavored flavor
  if 14 + e.ip4Len > kFrameBufferLen then none else some (e.frame sender spec.msgType)

/-! ## The messages of the client

Each helper of the source hands one spec to `emitDhcpMessage`. -/

def emitDhcpDiscover (xidBe : UInt32) : DhcpEmitSpec :=
  ⟨.Discover, kDhcpDiscover, xidBe, 0, kLimitedBroadcastBe, 0, 0, 0⟩

def emitDhcpRequest (xidBe requestedAddrBe serverIdBe : UInt32) : DhcpEmitSpec :=
  ⟨.Selecting, kDhcpRequest, xidBe, 0, kLimitedBroadcastBe, 0, requestedAddrBe, serverIdBe⟩

def emitDhcpRequestRenewing (xidBe clientAddrBe serverIdBe : UInt32) : DhcpEmitSpec :=
  ⟨.Renewing, kDhcpRequest, xidBe, clientAddrBe, serverIdBe, clientAddrBe, 0, 0⟩

def emitDhcpRequestRebinding (xidBe clientAddrBe : UInt32) : DhcpEmitSpec :=
  ⟨.Rebinding, kDhcpRequest, xidBe, clientAddrBe, kLimitedBroadcastBe, clientAddrBe, 0, 0⟩

def emitDhcpDecline (xidBe declinedAddrBe serverIdBe : UInt32) : DhcpEmitSpec :=
  ⟨.Decline, kDhcpDecline, xidBe, 0, kLimitedBroadcastBe, 0, declinedAddrBe, serverIdBe⟩

end Tc8Harness.Dut
