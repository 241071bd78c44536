import Tc8Harness.Dissect.Dhcpv4Delivery
import Tc8Harness.Dut.Dhcpv4Message
import Tc8Harness.Stimulus.FrameRoundTrip

/-!
# The client's messages as the harness reads them

The client writes its frames by itself and the harness reads them by itself. `frame_eq` brings the
client's frame into the shape of the harness's own builders, so the layers below DHCP read back by the
round trips of these; `dhcpItems_options` parses the options. `FramePart` cuts a frame into its fields,
and a flavor touches one of them (`part_flavored`). `message_decoded` states both.
-/

namespace Tc8Harness.Dut

open BigEndian Wire Someip Dissect
open Stimulus (Ipv4FrameSpec ethernetFrame udpPlain kEthBroadcast)

/-! ## Lengths -/

@[simp] theorem length_otherAddrs : otherAddrs.length = 12 := List.length_replicate

@[simp] theorem length_unwritten : unwritten.length = 202 := List.length_replicate

theorem htonl_readBe32 (v : UInt32) (rest : List UInt8) :
    htonl (readBe32 (bytes32 v ++ rest) 0) = v := by
  have htake : (bytes32 v ++ rest).take 4 = bytes32 v := List.take_left' (length_bytes32 v)
  have hlt : ofBE (bytes32 v) < 2 ^ 32 := by
    have h := ofBE_lt (bytes32 v)
    rwa [length_bytes32] at h
  have hbytes : putBe32 (readBe32 (bytes32 v ++ rest) 0) = bytes32 v := by
    rw [putBe32, readBe32, readBe, List.drop_zero, htake, UInt32.toNat_ofNat', Nat.mod_eq_of_lt hlt]
    simpa only [length_bytes32] using toBE_ofBE (bytes32 v)
  rw [htonl, hbytes]
  simpa using copy32_bytes32 v []

namespace EmitFields

variable (e : EmitFields) (sender : Sender) (msgType : UInt8)

@[simp] theorem length_chaddr : (e.chaddr sender).length = 6 := by
  unfold chaddr
  dsimp only
  split <;> simp

@[simp] theorem length_secs : e.secs.length = 2 := by
  unfold secs
  split
  · exact length_putBe16 _
  · rfl

@[simp] theorem length_options : (e.options msgType).length = e.optsLen := by
  unfold options option53 option50 option54 option55 endOption optsLen
  split <;> split <;> split <;> split <;> simp [kParameterRequestList]

@[simp] theorem length_bootp : (e.bootp sender msgType).length = kBootpFixedLen + e.optsLen := by
  simp [bootp, flags, cookie, kBootpFixedLen]
  omega

theorem length_udp (checksum : UInt16) : (e.udp sender msgType checksum).length = e.udpLen := by
  simp [udp, udpLen]
  omega

theorem optsLen_bounds : 10 ≤ e.optsLen ∧ e.optsLen ≤ 22 := by
  unfold optsLen kParameterRequestList
  split <;> split <;> decide

/-! ## The frame in the shape of the builders -/

/-- The IPv4 header the client writes, as a spec of the frame builder. -/
def ipv4Spec : Ipv4FrameSpec :=
  { srcMac := sender.dutMac, srcIp := e.l3SrcBe, dstIp := e.l3DstBe, ttl := 64, ipId := 0
    ipProtocol := 0x11 }

theorem ip_eq (checksum : UInt16) : e.ip checksum = (e.ipv4Spec sender).ipHdr e.udpLen checksum := by
  simp [ip, ipv4Spec, Ipv4FrameSpec.ipHdr, Ipv4FrameSpec.paddedOptions, Ipv4FrameSpec.flagsAndOffset,
    Ipv4FrameSpec.ipHeaderLen, Stimulus.optionsPadding, ip4Len]
  exact ⟨rfl, rfl⟩

theorem udp_eq (checksum : UInt16) : e.udp sender msgType checksum =
    udpPlain kUdpClientPort kUdpServerPort (e.bootp sender msgType) checksum := by
  rw [udp, udpPlain, length_bootp, udpLen]

/-- What IPv4 carries. -/
def datagram : List UInt8 := e.udp sender msgType (e.udpCsum sender msgType)

theorem frame_eq : e.frame sender msgType =
    ethernetFrame kEthBroadcast sender.dutMac kEtherTypeIpv4
      ((e.ipv4Spec sender).ipHdr (e.datagram sender msgType).length e.ipChecksum ++
        e.datagram sender msgType) := by
  have hip : writeBe16 e.ip 10 e.ipChecksum = e.ip e.ipChecksum :=
    writeBe16_append _ _ _ _ (by simp)
  have hudp : writeBe16 (e.udp sender msgType) 6 (e.udpCsum sender msgType) =
      e.datagram sender msgType := writeBe16_append _ _ _ _ (by simp)
  rw [frame, hip, hudp, datagram, length_udp, ip_eq e sender, ethernetFrame]

/-- What the Ethernet and IPv4 decoders hand on. -/
theorem decode_frame :
    ∃ eth ip, decodeEthernet (e.frame sender msgType) = some eth ∧
      eth.dst = kEthBroadcast.toList ∧ eth.src = sender.dutMac.toList ∧
      eth.etherType = kEtherTypeIpv4 ∧ eth.dot1q = none ∧
      eth.payload = e.ip e.ipChecksum ++ e.datagram sender msgType ∧
      decodeIpv4Header eth.payload = some ip ∧ ip.srcBe = e.l3SrcBe ∧ ip.dstBe = e.l3DstBe ∧
      ip.protocol = kIpProtoUdp ∧ ip.fragmented = false ∧ ip.headerLen = 20 ∧
      l4Of eth ip = e.datagram sender msgType := by
  have hlen : (e.datagram sender msgType).length = e.udpLen := length_udp e sender msgType _
  have hopts := e.optsLen_bounds
  have htotal : 20 + (e.datagram sender msgType).length ≤ 65535 := by
    rw [hlen, udpLen, kBootpFixedLen]
    omega
  obtain ⟨eth, ip, heth, hpayload, hip, hcarries, hfragmented, hheader, hl4⟩ :=
    Stimulus.decode_whole (show (e.ipv4Spec sender).ipOptions = [] from rfl) rfl rfl htotal
      e.ipChecksum
  rw [hlen, ← ip_eq] at hpayload
  refine ⟨eth, ip, ?_, hcarries.dstMac, hcarries.srcMac, hcarries.etherType, hcarries.dot1q, hpayload, hip,
    hcarries.ipv4.src, hcarries.ipv4.dst, hcarries.ipv4.protocol, hfragmented, hheader, hl4⟩
  rw [frame_eq]
  exact heth

theorem decodeUdp_datagram :
    decodeUdp (e.datagram sender msgType) =
      some ⟨kUdpClientPort, kUdpServerPort, UInt16.ofNat e.udpLen, e.udpCsum sender msgType,
        some (e.bootp sender msgType)⟩ := by
  have hne : e.bootp sender msgType ≠ [] := by simp [bootp]
  rw [datagram, udp_eq, Stimulus.decodeUdp_of_ne_nil hne, length_bootp]
  rfl

/-! ## The fields of the BOOTP message -/

theorem drop_bootp_options : (e.bootp sender msgType).drop kOptionsOff = e.options msgType := by
  have hhead : e.bootp sender msgType = ([kBootRequest, 1, 6, 0] ++ (bytes32 e.xidBe ++ (e.secs ++
      (e.flags ++ (bytes32 e.ciaddrBe ++ (otherAddrs ++ (e.chaddr sender ++ (unwritten ++
        e.cookie)))))))) ++ e.options msgType := by
    simp only [bootp, List.append_assoc]
  rw [hhead]
  exact List.drop_left' (by simp [flags, cookie, kOptionsOff])

theorem copy32_bootp_ciaddr : copy32 (e.bootp sender msgType) 12 = e.ciaddrBe := by
  rw [bootp, copy32_append_right (by simp), copy32_append_right (by simp),
    copy32_append_right (by simp), copy32_append_right (by simp [flags])]
  simpa [flags] using copy32_bytes32 e.ciaddrBe _

theorem readBe32_bootp_xid : htonl (readBe32 (e.bootp sender msgType) 4) = e.xidBe := by
  rw [bootp, readBe32, readBe_append_right (by simp)]
  exact htonl_readBe32 _ _

theorem chaddr_bootp :
    ((e.bootp sender msgType).drop 28).take 16 = e.chaddr sender ++ List.replicate 10 0 := by
  have hhead : e.bootp sender msgType = ([kBootRequest, 1, 6, 0] ++ (bytes32 e.xidBe ++ (e.secs ++
      (e.flags ++ (bytes32 e.ciaddrBe ++ otherAddrs))))) ++ ((e.chaddr sender ++ List.replicate 10 0) ++
        (List.replicate 192 0 ++ (e.cookie ++ e.options msgType))) := by
    have hunwritten : unwritten = List.replicate 10 0 ++ List.replicate 192 0 :=
      List.replicate_add 10 192 0
    simp only [bootp, List.append_assoc, hunwritten]
  rw [hhead, List.drop_left' (by simp [flags]), List.take_left' (by simp)]

theorem readBe32_bootp_cookie (hcookie : e.corruptMagicCookie = false) :
    readBe32 (e.bootp sender msgType) kMagicCookieOff = kMagicCookie := by
  have hhead : e.bootp sender msgType = ([kBootRequest, 1, 6, 0] ++ (bytes32 e.xidBe ++ (e.secs ++
      (e.flags ++ (bytes32 e.ciaddrBe ++ (otherAddrs ++ (e.chaddr sender ++ unwritten))))))) ++
        (e.cookie ++ e.options msgType) := by
    simp only [bootp, List.append_assoc]
  rw [hhead, readBe32, readBe_append_right (by simp [flags, kMagicCookieOff]), cookie, hcookie]
  simp [flags, kMagicCookieOff, readBe, kMagicCookie, ofBE]

/-! ## The options -/

/-- What an optional address puts into the list. -/
def addrItems (code : UInt8) (addrBe : UInt32) : List (UInt8 × List UInt8) :=
  if addrBe ≠ 0 then [(code, bytes32 addrBe)] else []

/-- The items of an unmutated list. -/
def items : List (UInt8 × List UInt8) :=
  (53, [msgType]) :: (addrItems 50 e.requestedAddrBe ++ (addrItems 54 e.serverIdBe ++
    [(55, kParameterRequestList)]))

/-- An optional address in front of a list that parses. -/
theorem parse_addr (code : UInt8) (hfin : code ≠ 0xFF) (hpad : code ≠ 0x00) (addrBe : UInt32)
    {rest : List UInt8} {tail : List (UInt8 × List UInt8) × Tlv.Stop} {n : Nat}
    (hrest : ∀ steps, Tlv.parse 0x00 0xFF (steps + n) rest = tail) (steps : Nat) :
    Tlv.parse 0x00 0xFF (steps + (n + 1))
        ((if addrBe ≠ 0 then [code, 4] ++ bytes32 addrBe else []) ++ rest) =
      (addrItems code addrBe ++ tail.1, tail.2) := by
  by_cases haddr : addrBe = 0
  · rw [addrItems, if_neg (not_not.2 haddr), if_neg (not_not.2 haddr), ← hrest (steps + 1),
      Nat.add_right_comm]
    rfl
  · have hitem : [code, 4] ++ bytes32 addrBe = Tlv.item code (bytes32 addrBe) := by
      rw [Tlv.item, length_bytes32]
      rfl
    rw [addrItems, if_pos haddr, if_pos haddr, hitem, ← Nat.add_assoc,
      Tlv.parse_item hfin hpad (by rw [length_bytes32]; decide), hrest]
    rfl

theorem dhcpItems_options (h53 : e.omitMessageTypeOption = false)
    (h55 : e.mutateParamRequestList = false) (hend : e.dropEndOption = false) :
    dhcpItems (e.options msgType) = (e.items msgType, .marker) := by
  have htail : ∀ steps, Tlv.parse 0x00 0xFF (steps + 2) (e.option55 ++ e.endOption) =
      ([(55, kParameterRequestList)], .marker) := by
    intro steps
    rw [option55, h55, endOption, hend]
    exact Tlv.parse_item (by decide) (by decide) (by decide)
  have hsteps : (e.options msgType).length = e.optsLen - 5 + 5 := by
    have hopts := e.optsLen_bounds
    rw [length_options]
    omega
  have haddrs := parse_addr 50 (by decide) (by decide) e.requestedAddrBe
    (parse_addr 54 (by decide) (by decide) e.serverIdBe htail) (e.optsLen - 5)
  rw [dhcpItems, hsteps, options, option53, h53, if_neg Bool.false_ne_true]
  change Tlv.parse _ _ (e.optsLen - 5 + 4 + 1) (Tlv.item 53 [msgType] ++ _) = _
  rw [Tlv.parse_item (by decide) (by decide) (by simp), option50, option54, haddrs]
  rfl

/-- The address an option of the code asks for. -/
def addrOf (code : UInt8) : UInt32 := if code = 50 then e.requestedAddrBe else e.serverIdBe

section Items

variable {f : Dhcpv4Frame} (hitems : dhcpItems f.options = (e.items msgType, .marker))
include hitems

theorem optionAbsent_items {code : UInt8} (hcode : code = 50 ∨ code = 54) :
    f.optionAbsent code = decide (e.addrOf code = 0) := by
  rw [f.optionAbsent_eq, hitems]
  rcases hcode with rfl | rfl <;>
    by_cases hreq : e.requestedAddrBe = 0 <;> by_cases hsid : e.serverIdBe = 0 <;>
      simp [Tlv.outcome, items, addrItems, addrOf, hreq, hsid]

theorem optionBe32Equals_items {code : UInt8} (hcode : code = 50 ∨ code = 54) (expectedBe : UInt32) :
    f.optionBe32Equals code expectedBe =
      (decide (e.addrOf code ≠ 0) && e.addrOf code == expectedBe) := by
  have hcopy : ∀ v : UInt32, copy32 (bytes32 v) 0 = v := fun v => by simpa using copy32_bytes32 v []
  rw [f.optionBe32Equals_eq, hitems]
  rcases hcode with rfl | rfl <;>
    by_cases hreq : e.requestedAddrBe = 0 <;> by_cases hsid : e.serverIdBe = 0 <;>
      simp [Tlv.outcome, items, addrItems, addrOf, hreq, hsid, hcopy]

end Items

theorem walkDhcpOptions_options (h53 : e.omitMessageTypeOption = false)
    (h55 : e.mutateParamRequestList = false) (hend : e.dropEndOption = false) :
    walkDhcpOptions (e.options msgType) (e.options msgType).length 0 none = (some msgType, true) := by
  have hitems := e.dhcpItems_options msgType h53 h55 hend
  rw [dhcpItems] at hitems
  rw [walkDhcpOptions_eq, List.drop_zero, hitems]
  by_cases hreq : e.requestedAddrBe = 0 <;> by_cases hsid : e.serverIdBe = 0 <;>
    simp [items, addrItems, messageTypeStep, hreq, hsid]

/-! ## Checksums -/

theorem inetChecksumValid_ip : inetChecksumValid (e.ip e.ipChecksum) = true :=
  inetChecksumValid_append _ (by simp)

theorem udpChecksumValid_datagram :
    udpChecksumValid e.l3SrcBe e.l3DstBe (writeBe16 (e.datagram sender msgType) 6 0)
      (e.udpCsum sender msgType) = true := by
  have hzeroed : writeBe16 (e.datagram sender msgType) 6 0 = e.udp sender msgType :=
    writeBe16_append _ _ _ _ (by simp)
  rw [udpChecksumValid, hzeroed]
  simp [udpCsum]

end EmitFields

/-! ## The fields of a frame -/

/-- The pieces of a frame, in wire order. -/
inductive FramePart where
  | ethernet
  | ipVersion
  | ipLength
  | ipIdToProtocol
  | ipChecksum
  | srcIp
  | dstIp
  | udpPorts
  | udpLength
  | udpChecksum
  | bootpHead
  | xid
  | secs
  | flags
  | ciaddr
  | otherAddrs
  | chaddr
  | unwritten
  | cookie
  | option53
  | option50
  | option54
  | option55
  | endOption
  deriving DecidableEq, Repr

namespace FramePart

def wireOrder : List FramePart :=
  [ethernet, ipVersion, ipLength, ipIdToProtocol, ipChecksum, srcIp, dstIp, udpPorts, udpLength,
    udpChecksum, bootpHead, xid, secs, flags, ciaddr, otherAddrs, chaddr, unwritten, cookie, option53,
    option50, option54, option55, endOption]

/-- Lengths and checksums follow from the rest. -/
def derived : FramePart → Bool
  | ipLength | ipChecksum | udpLength | udpChecksum => true
  | _ => false

end FramePart

def EmitFields.part (e : EmitFields) (sender : Sender) (msgType : UInt8) : FramePart → List UInt8
  | .ethernet => kEthBroadcast.toList ++ (sender.dutMac.toList ++ putBe16 kEtherTypeIpv4)
  | .ipVersion => [0x45, 0x00]
  | .ipLength => putBe16 (UInt16.ofNat e.ip4Len)
  | .ipIdToProtocol => putBe16 0x0000 ++ (putBe16 0x0000 ++ [64, 0x11])
  | .ipChecksum => putBe16 e.ipChecksum
  | .srcIp => bytes32 e.l3SrcBe
  | .dstIp => bytes32 e.l3DstBe
  | .udpPorts => putBe16 kUdpClientPort ++ putBe16 kUdpServerPort
  | .udpLength => putBe16 (UInt16.ofNat e.udpLen)
  | .udpChecksum => putBe16 (e.udpCsum sender msgType)
  | .bootpHead => [kBootRequest, 1, 6, 0]
  | .xid => bytes32 e.xidBe
  | .secs => e.secs
  | .flags => e.flags
  | .ciaddr => bytes32 e.ciaddrBe
  | .otherAddrs => Dut.otherAddrs
  | .chaddr => e.chaddr sender
  | .unwritten => Dut.unwritten
  | .cookie => e.cookie
  | .option53 => e.option53 msgType
  | .option50 => e.option50
  | .option54 => e.option54
  | .option55 => e.option55
  | .endOption => e.endOption

theorem EmitFields.frame_parts (e : EmitFields) (sender : Sender) (msgType : UInt8) :
    e.frame sender msgType = FramePart.wireOrder.flatMap (e.part sender msgType) := by
  have hip : writeBe16 e.ip 10 e.ipChecksum = e.ip e.ipChecksum :=
    writeBe16_append _ _ _ _ (by simp)
  have hudp : writeBe16 (e.udp sender msgType) 6 (e.udpCsum sender msgType) =
      e.udp sender msgType (e.udpCsum sender msgType) := writeBe16_append _ _ _ _ (by simp)
  rw [frame, hip, hudp]
  simp only [ip, udp, bootp, options, FramePart.wireOrder, List.flatMap_cons, List.flatMap_nil, part,
    List.append_assoc, List.append_nil]

namespace Dhcpv4ClientFlavor

/-- The field or option a flavor is about. -/
def ownPart : Dhcpv4ClientFlavor → Option FramePart
  | None => none
  | DiscoverMagicCookieCorrupt => some .cookie
  | DiscoverOmitMessageType | RequestOmitMessageType => some .option53
  | DiscoverReservedFlagsSet => some .flags
  | DiscoverDropEnd => some .endOption
  | DiscoverSrcNonzero | RequestSrcNonzero => some .srcIp
  | DiscoverDstUnicast | RequestDstUnicast | RenewingRequestDstWrong | RebindingDstUnicast => some .dstIp
  | RequestCiaddrNonzero | ReacqRequestCiaddrWrong | DiscoverCiaddrNonzero => some .ciaddr
  | RequestServerIdCorrupt | ReacqRequestIncludeServerId => some .option54
  | RequestRequestedIpCorrupt | ReacqRequestIncludeRequestedIp | DeclineRequestedIpWrong =>
    some .option50
  | RequestSecsMismatch => some .secs
  | RequestXidMismatch => some .xid
  | RequestParamListMismatch => some .option55
  | DiscoverChaddrMismatch => some .chaddr

/-- The phases whose messages a flavor is about. -/
def ownPhases : Dhcpv4ClientFlavor → List DhcpPhase
  | None => []
  | DiscoverMagicCookieCorrupt | DiscoverOmitMessageType | DiscoverReservedFlagsSet | DiscoverDstUnicast
  | DiscoverDropEnd | DiscoverSrcNonzero | DiscoverCiaddrNonzero | DiscoverChaddrMismatch => [.Discover]
  | RequestSrcNonzero | RequestDstUnicast | RequestCiaddrNonzero | RequestServerIdCorrupt
  | RequestRequestedIpCorrupt | RequestSecsMismatch | RequestXidMismatch | RequestParamListMismatch
  | RequestOmitMessageType => [.Selecting]
  | ReacqRequestIncludeServerId | ReacqRequestIncludeRequestedIp | ReacqRequestCiaddrWrong =>
    [.Renewing, .Rebinding]
  | RenewingRequestDstWrong => [.Renewing]
  | RebindingDstUnicast => [.Rebinding]
  | DeclineRequestedIpWrong => [.Decline]

end Dhcpv4ClientFlavor

variable (spec : DhcpEmitSpec) (flavor : Dhcpv4ClientFlavor)

theorem flavored_outside (h : spec.phase ∉ flavor.ownPhases) : spec.flavored flavor = spec.fields := by
  cases flavor <;> simp_all [DhcpEmitSpec.flavored, Dhcpv4ClientFlavor.ownPhases]

theorem part_flavored (sender : Sender) (p : FramePart) (hown : flavor.ownPart ≠ some p)
    (hderived : p.derived = false) :
    (spec.flavored flavor).part sender spec.msgType p = spec.fields.part sender spec.msgType p := by
  cases flavor with
  | None => rfl
  | _ =>
    simp only [DhcpEmitSpec.flavored]
    split
    · -- The one field the flavor sets is read by its own part and by the lengths and checksums only.
      cases p <;> first
        | exact absurd hderived (by decide)
        | exact absurd rfl hown
        | rfl
    · rfl

/-! ## The message read back -/

def DhcpPhase.messageType : DhcpPhase → UInt8
  | .Discover => kDhcpDiscover
  | .Selecting | .Renewing | .Rebinding => kDhcpRequest
  | .Decline => kDhcpDecline

/-- What the harness says of the message of a spec. -/
structure CarriesMessage (sender : Sender) (spec : DhcpEmitSpec) (f : Dhcpv4Frame) : Prop where
  ethSrc : f.ethSrc = sender.dutMac.toList
  ethDst : f.ethDst = kEthBroadcast.toList
  srcIp : f.srcIp = spec.l3SrcBe
  dstIp : f.dstIp = spec.l3DstBe
  xid : htonl f.xid = spec.xidBe
  ciaddr : f.ciaddr = spec.ciaddrBe
  chaddr : f.chaddr = (sender.chaddrOverride.getD sender.dutMac).toList ++ List.replicate 10 0
  magicCookieValid : f.magicCookieValid = true
  messageType : f.messageType = some spec.phase.messageType
  lastOptionIsEnd : f.lastOptionIsEnd = true
  option50Absent : f.optionAbsent 50 = decide (spec.requestedAddrBe = 0)
  option54Absent : f.optionAbsent 54 = decide (spec.serverIdBe = 0)
  option50Equals : ∀ v, f.optionBe32Equals 50 v =
    (decide (spec.requestedAddrBe ≠ 0) && spec.requestedAddrBe == v)
  option54Equals : ∀ v, f.optionBe32Equals 54 v =
    (decide (spec.serverIdBe ≠ 0) && spec.serverIdBe == v)

/-- The checksums the decoders find are those of what they find them in. -/
def ChecksumsValid (frame : List UInt8) : Prop :=
  ∃ eth ip udp, decodeEthernet frame = some eth ∧ decodeIpv4Header eth.payload = some ip ∧
    decodeUdp (l4Of eth ip) = some udp ∧ inetChecksumValid (eth.payload.take ip.headerLen) = true ∧
    udpChecksumValid ip.srcBe ip.dstBe (writeBe16 (l4Of eth ip) 6 0) udp.checksum = true

/-- A flavor's frame against the frame without one. -/
structure OnlyOwnPart (flavor : Dhcpv4ClientFlavor) (sender : Sender) (spec : DhcpEmitSpec)
    (plain mutant : List UInt8) : Prop where
  plainParts : plain = FramePart.wireOrder.flatMap (spec.fields.part sender spec.msgType)
  mutantParts : mutant = FramePart.wireOrder.flatMap
    ((spec.flavored flavor).part sender spec.msgType)
  onlyOwn : ∀ p, flavor.ownPart ≠ some p → p.derived = false →
    (spec.flavored flavor).part sender spec.msgType p = spec.fields.part sender spec.msgType p
  onlyOwnPhases : spec.phase ∉ flavor.ownPhases → mutant = plain

variable (sender : Sender)

theorem emitDhcpMessage_eq :
    emitDhcpMessage flavor sender spec = some ((spec.flavored flavor).frame sender spec.msgType) := by
  have hopts := (spec.flavored flavor).optsLen_bounds
  rw [emitDhcpMessage, if_neg]
  rw [EmitFields.ip4Len, EmitFields.udpLen, kBootpFixedLen, kFrameBufferLen]
  omega

theorem onlyOwnPart_emitted : OnlyOwnPart flavor sender spec (spec.fields.frame sender spec.msgType)
    ((spec.flavored flavor).frame sender spec.msgType) where
  plainParts := EmitFields.frame_parts _ _ _
  mutantParts := EmitFields.frame_parts _ _ _
  onlyOwn := part_flavored spec flavor sender
  onlyOwnPhases h := by rw [flavored_outside spec flavor h]

theorem checksumsValid_frame (e : EmitFields) (msgType : UInt8) :
    ChecksumsValid (e.frame sender msgType) := by
  obtain ⟨eth, ip, heth, -, -, -, -, hpayload, hip, hsrc, hdst, -, -, hheader, hl4⟩ :=
    e.decode_frame sender msgType
  have hhead : eth.payload.take ip.headerLen = e.ip e.ipChecksum := by
    rw [hpayload, hheader]
    exact List.take_left' (by simp [EmitFields.ip])
  refine ⟨eth, ip, _, heth, hip, by rw [hl4]; exact e.decodeUdp_datagram sender msgType, ?_, ?_⟩
  · rw [hhead]
    exact e.inetChecksumValid_ip
  · rw [hsrc, hdst, hl4]
    exact e.udpChecksumValid_datagram sender msgType

theorem carriesMessage_fields (hphase : spec.msgType = spec.phase.messageType) {uf : UdpFrame}
    (hethSrc : uf.ethSrc = sender.dutMac.toList) (hethDst : uf.ethDst = kEthBroadcast.toList)
    (hsrc : uf.srcIp = spec.l3SrcBe) (hdst : uf.dstIp = spec.l3DstBe) :
    CarriesMessage sender spec (dhcpv4FrameFrom uf (spec.fields.bootp sender spec.msgType)) := by
  have hcookie := spec.fields.readBe32_bootp_cookie sender spec.msgType rfl
  have hoptions := spec.fields.drop_bootp_options sender spec.msgType
  have hwalk := spec.fields.walkDhcpOptions_options spec.msgType rfl rfl rfl
  have hframe : (dhcpv4FrameFrom uf (spec.fields.bootp sender spec.msgType)).options =
      spec.fields.options spec.msgType := by
    simp [dhcpv4FrameFrom, hcookie, hoptions]
  have hread : (dhcpv4FrameFrom uf (spec.fields.bootp sender spec.msgType)).messageType =
        some spec.msgType ∧
      (dhcpv4FrameFrom uf (spec.fields.bootp sender spec.msgType)).lastOptionIsEnd = true := by
    rw [← Prod.mk.injEq, ← hwalk, ← hframe, walkDhcpOptions_dhcpv4FrameFrom]
  have hitems : dhcpItems (dhcpv4FrameFrom uf (spec.fields.bootp sender spec.msgType)).options =
      (spec.fields.items spec.msgType, .marker) := by
    rw [hframe]
    exact spec.fields.dhcpItems_options spec.msgType rfl rfl rfl
  exact
    { ethSrc := hethSrc
      ethDst := hethDst
      srcIp := hsrc
      dstIp := hdst
      xid := spec.fields.readBe32_bootp_xid sender spec.msgType
      ciaddr := spec.fields.copy32_bootp_ciaddr sender spec.msgType
      chaddr := spec.fields.chaddr_bootp sender spec.msgType
      magicCookieValid := by simp [dhcpv4FrameFrom, hcookie]
      messageType := hread.1.trans (congrArg some hphase)
      lastOptionIsEnd := hread.2
      option50Absent := spec.fields.optionAbsent_items spec.msgType hitems (.inl rfl)
      option54Absent := spec.fields.optionAbsent_items spec.msgType hitems (.inr rfl)
      option50Equals := spec.fields.optionBe32Equals_items spec.msgType hitems (.inl rfl)
      option54Equals := spec.fields.optionBe32Equals_items spec.msgType hitems (.inr rfl) }

/-- **The harness reads the client's messages as they were meant, and a flavor changes one thing.** -/
theorem message_decoded {σ φ : Type} (env : Env σ φ) (s : Pipeline σ φ) (sender : Sender)
    (spec : DhcpEmitSpec) (hphase : spec.msgType = spec.phase.messageType)
    (hserver : env.controlPlanePort ≠ kUdpServerPort)
    (hclient : env.controlPlanePort ≠ kUdpClientPort) :
    ∃ frame, emitDhcpMessage .None sender spec = some frame ∧ ChecksumsValid frame ∧
      (∀ f : PcapFrame, f.bytes = frame → f.len ≤ frame.length → f.datalink = kDltEn10mb →
        (∀ c ∈ (processFrame env s f).calls, c.threw = none) →
        ∃ df, dhcpv4Events (processFrame env s f).calls = [df] ∧ CarriesMessage sender spec df) ∧
      ∀ flavor, ∃ mutant, emitDhcpMessage flavor sender spec = some mutant ∧
        OnlyOwnPart flavor sender spec frame mutant := by
  refine ⟨spec.fields.frame sender spec.msgType, emitDhcpMessage_eq spec .None sender,
    checksumsValid_frame sender _ _, ?_, fun flavor => ⟨_, emitDhcpMessage_eq spec flavor sender,
      onlyOwnPart_emitted spec flavor sender⟩⟩
  intro f hbytes hlen hlink hreturned
  obtain ⟨eth, ip, heth, hethDst, hethSrc, htype, -, -, hip, hsrc, hdst, hproto, hfrag, -, hl4⟩ :=
    spec.fields.decode_frame sender spec.msgType
  have hudp := spec.fields.decodeUdp_datagram sender spec.msgType
  have hbootp : kOptionsOff ≤ (spec.fields.bootp sender spec.msgType).length := by
    rw [EmitFields.length_bootp]
    exact Nat.le_add_right _ _
  refine ⟨_, processFrame_dhcpv4 hlink (by rwa [hbytes]) (by rw [hbytes]; exact heth) htype hip hproto
    hfrag (by rw [hl4]; exact hudp) rfl rfl hbootp hclient.symm hserver.symm hreturned, ?_⟩
  exact carriesMessage_fields spec sender hphase hethSrc hethDst hsrc hdst

/-- A case that watches and never throws. -/
def watchingEnv : Env Unit Unit where
  listener s _ := (s, none)
  markerListener := none
  processPacket state _ := .done state

/-- A whole capture of a frame. -/
def captureOf (frame : List UInt8) : PcapFrame := ⟨frame, frame.length, 0, 0, kDltEn10mb⟩

/-- A REQUEST for 10.0.0.7 from the server 10.0.0.1. -/
def requestSeven : DhcpEmitSpec := emitDhcpRequest 0x04030201 0x0700000A 0x0100000A

theorem message_decoded_requestSeven :
    ∃ frame df, emitDhcpMessage .None ⟨#v[2, 0, 0, 0, 0, 1], none⟩ requestSeven = some frame ∧
      dhcpv4Events (processFrame watchingEnv ⟨(), (), {}, 0, ∅, [], 0, 0, []⟩
        (captureOf frame)).calls = [df] ∧
      htonl df.xid = 0x04030201 ∧ df.messageType = some 3 ∧
      df.optionBe32Equals 50 0x0700000A = true ∧ df.optionAbsent 54 = false := by
  obtain ⟨frame, hframe, -, hdecoded, -⟩ := message_decoded watchingEnv
    ⟨(), (), {}, 0, ∅, [], 0, 0, []⟩ ⟨#v[2, 0, 0, 0, 0, 1], none⟩ requestSeven rfl (by decide) (by decide)
  have hcalls : (processFrame watchingEnv ⟨(), (), {}, 0, ∅, [], 0, 0, []⟩ (captureOf
      ((emitDhcpMessage .None ⟨#v[2, 0, 0, 0, 0, 1], none⟩ requestSeven).getD []))).calls.all
        (fun c => c.threw.isNone) = true := by
    decide +kernel
  rw [hframe] at hcalls
  obtain ⟨df, hdf, hcarries⟩ := hdecoded (captureOf frame) rfl (Nat.le_refl _) rfl fun c hc =>
    Option.isNone_iff_eq_none.1 (List.all_eq_true.1 hcalls c hc)
  exact ⟨frame, df, hframe, hdf, hcarries.xid, hcarries.messageType,
    (hcarries.option50Equals _).trans (by decide), hcarries.option54Absent.trans (by decide)⟩

end Tc8Harness.Dut
