import Tc8Harness.Dut.Dhcpv4Decoded
import Tc8Harness.Dut.OptionReading
import Tc8Harness.Stimulus.ChecksumAgreement
import Tc8Harness.Stimulus.Dhcpv4FrameBuilder

/-!
# The server's replies read back

What the emulated server builds is read twice: by the harness, as it reads every frame, and by the client,
from the payload of the datagram, of which it receives 2048 bytes. `items` is what the options are to say, and
`options_eq` that they are written as these items, padding and END. Cutting the payload takes padding and
END away and no item (`reads_take_options`), so both readers see the same items. The router is outside
them: `carriedRouterBe` looks for it where Option 52 says.
-/

namespace Tc8Harness.Dut

open BigEndian Wire Someip Dissect
open Stimulus (Dhcpv4ReplySpec buildDhcpv4Reply Ipv4FrameSpec ethernetFrame udpPlain)

/-! ## What a reply is to say -/

/-- The router a field of options names in its first Option 3, when that has room for one. -/
def routerIn (field : List UInt8) : Option UInt32 :=
  ((firstValue field 3).filter fun value => 4 ≤ value.length).map fun value => copy32 value 0

/-- A payload in a field of the length. -/
def padded (payload : List UInt8) (len : Nat) : List UInt8 :=
  payload ++ List.replicate (len - payload.length) 0

section Spec

variable (spec : Dhcpv4ReplySpec)

/-- The options of a reply. A NAK has neither a lease time nor a mask. -/
def replyItems : List (UInt8 × List UInt8) :=
  [(53, [spec.messageType]), (54, bytes32 spec.serverIdBe)] ++
    ((if spec.messageType ≠ kDhcpNak ∧ spec.leaseTimeSeconds ≠ 0 then
        [(51, putBe32 spec.leaseTimeSeconds)] else []) ++
      ((if spec.messageType ≠ kDhcpNak ∧ spec.subnetMaskBe ≠ 0 then
          [(1, bytes32 spec.subnetMaskBe)] else []) ++
        (if spec.option52Overload ≠ 0 then [(52, [spec.option52Overload])] else [])))

/-- The bytes of the datagram without padding: the headers, the fixed part, the items and END. -/
def naturalLength : Nat :=
  20 + 8 + 240 + ((replyItems spec).flatMap fun it => Tlv.item it.1 it.2).length + 1

/-- The router in `sname`, or else in `file`, of those that Option 52 puts options into. -/
def carriedRouterBe : UInt32 :=
  let inSname := if spec.option52Overload &&& 0x02 ≠ 0 then routerIn (padded spec.snamePayload 64) else none
  let inFile := if spec.option52Overload &&& 0x01 ≠ 0 then routerIn (padded spec.filePayload 128) else none
  (inSname.or inFile).getD 0

/-- What the client is to take from a reply. -/
def expectedReply : Reply :=
  { yiaddrBe := if spec.messageType = kDhcpNak then 0 else spec.yiaddrBe
    serverIdBe := spec.serverIdBe
    leaseSeconds := if spec.messageType = kDhcpNak then 0 else spec.leaseTimeSeconds
    msgType := spec.messageType
    routerBe := carriedRouterBe spec }

/-- The client waits for the reply: its transaction, its address, and its type or any. -/
structure Awaits (gate : ReplyGate) : Prop where
  xid : gate.expectedXidBe = htonl spec.xid
  chaddr : gate.dutMac = spec.chaddr
  msgType : gate.expectedMsgType = 0 ∨ gate.expectedMsgType = spec.messageType

/-- What the harness is to say of a reply. -/
structure CarriesReply (f : Dhcpv4Frame) : Prop where
  ethDst : f.ethDst = spec.ethDst.toList
  ethSrc : f.ethSrc = spec.ethSrc.toList
  srcIp : f.srcIp = spec.srcIpBe
  dstIp : f.dstIp = spec.dstIpBe
  ports : f.srcPort = kDhcpServerPort ∧ f.dstPort = kDhcpClientPort
  bootp : f.op = kBootReply ∧ f.htype = 1 ∧ f.hlen = 6 ∧ f.hops = 0
  xid : f.xid = spec.xid
  secsFlags : f.secs = 0 ∧ f.flags = 0
  yiaddr : f.yiaddr = if spec.messageType = kDhcpNak then 0 else spec.yiaddrBe
  otherAddrs : f.ciaddr = 0 ∧ f.siaddr = 0 ∧ f.giaddr = 0
  chaddr : f.chaddr = spec.chaddr.toList ++ List.replicate 10 0
  magicCookieValid : f.magicCookieValid = true
  messageType : f.messageType = some spec.messageType
  items : dhcpItems f.options = (replyItems spec, .marker)
  lastOptionIsEnd : f.lastOptionIsEnd = true ∧ f.options.getLast? = some 0xFF
  nak : spec.messageType = kDhcpNak → f.optionAbsent 51 = true ∧ f.optionAbsent 1 = true

end Spec

/-! ## The options -/

section Options

variable (spec : Dhcpv4ReplySpec)

/-- The options are written as items, padding and END. -/
theorem options_eq :
    spec.options = ((replyItems spec).flatMap fun it => Tlv.item it.1 it.2) ++
      (List.replicate spec.padCount 0x00 ++ [0xFF]) := by
  unfold Dhcpv4ReplySpec.options Dhcpv4ReplySpec.option51 Dhcpv4ReplySpec.option1 Dhcpv4ReplySpec.option52
    Dhcpv4ReplySpec.wireLeaseTimeSeconds Dhcpv4ReplySpec.wireSubnetMaskBe replyItems
  have hnak : spec.isNak = decide (spec.messageType = kDhcpNak) := rfl
  rw [hnak]
  by_cases htype : spec.messageType = kDhcpNak
  · by_cases hoverload : spec.option52Overload = 0 <;> simp [htype, hoverload, Tlv.item]
  · by_cases hlease : spec.leaseTimeSeconds = 0 <;> by_cases hmask : spec.subnetMaskBe = 0 <;>
      by_cases hoverload : spec.option52Overload = 0 <;>
        simp [htype, hlease, hmask, hoverload, Tlv.item]

theorem wellFormed_replyItems :
    ∀ it ∈ replyItems spec, it.1 ≠ 0xFF ∧ it.1 ≠ 0x00 ∧ it.2.length < 256 := by
  intro it hit
  simp only [replyItems, List.mem_append, List.mem_cons, List.not_mem_nil, or_false,
    List.mem_ite_nil_right] at hit
  rcases hit with (rfl | rfl) | ⟨-, rfl⟩ | ⟨-, rfl⟩ | ⟨-, rfl⟩ <;> simp

theorem dhcpItems_options_reply : dhcpItems spec.options = (replyItems spec, .marker) := by
  have hreads : Tlv.Reads 0x00 0xFF spec.options (replyItems spec ++ []) .marker := by
    rw [options_eq]
    exact Tlv.Reads.items_append (wellFormed_replyItems spec) (Tlv.reads_padding spec.padCount)
  rw [List.append_nil] at hreads
  exact hreads.parse_eq (by decide) le_rfl

/-- A cut behind the items leaves them all. -/
theorem dhcpItems_take_options {room : Nat}
    (hroom : ((replyItems spec).flatMap fun it => Tlv.item it.1 it.2).length ≤ room) :
    (dhcpItems (spec.options.take room)).1 = replyItems spec := by
  obtain ⟨stop, hreads⟩ : ∃ stop, Tlv.Reads 0x00 0xFF (spec.options.take room) (replyItems spec ++ [])
      stop := by
    rw [options_eq, List.take_append, List.take_of_length_le hroom]
    obtain ⟨stop, hpadding⟩ := Tlv.reads_take_padding spec.padCount _
    exact ⟨stop, Tlv.Reads.items_append (wellFormed_replyItems spec) hpadding⟩
  rw [List.append_nil] at hreads
  rw [dhcpItems, hreads.parse_eq (by decide) le_rfl]

end Options

/-! ## The fixed part -/

section Fixed

variable (spec : Dhcpv4ReplySpec) (rest : List UInt8)

theorem head_fixed :
    (spec.bootpFixed ++ rest).getD 0 0 = kBootReply ∧ (spec.bootpFixed ++ rest).getD 1 0 = 1 ∧
      (spec.bootpFixed ++ rest).getD 2 0 = 6 ∧ (spec.bootpFixed ++ rest).getD 3 0 = 0 :=
  ⟨rfl, rfl, rfl, rfl⟩

theorem xid_fixed :
    readBe32 (spec.bootpFixed ++ rest) 4 = spec.xid ∧ copy32 (spec.bootpFixed ++ rest) 4 = htonl spec.xid := by
  obtain ⟨tail, hpieces⟩ : ∃ tail, spec.bootpFixed ++ rest = [2, 1, 6, 0] ++ (putBe32 spec.xid ++ tail) := by
    simp only [Dhcpv4ReplySpec.bootpFixed, List.append_assoc]
    exact ⟨_, rfl⟩
  constructor
  · rw [hpieces, readBe32, readBe_append_right (by simp), show 4 - [2, 1, 6, (0 : UInt8)].length = 0 from rfl,
      readBe_putBe32, UInt32.ofNat_toNat]
  · have hwhole : (putBe32 spec.xid).take 4 = putBe32 spec.xid :=
      List.take_of_length_le (length_putBe32 spec.xid).le
    rw [hpieces, copy32_append_right (by simp), htonl, copy32, copy32]
    simp [hwhole]

theorem addrs_fixed :
    copy32 (spec.bootpFixed ++ rest) 12 = 0 ∧ copy32 (spec.bootpFixed ++ rest) 16 = spec.wireYiaddrBe ∧
      copy32 (spec.bootpFixed ++ rest) 20 = 0 ∧ copy32 (spec.bootpFixed ++ rest) 24 = 0 := by
  refine ⟨?_, ?_, ?_, ?_⟩ <;>
    simp (disch := simp) only [Dhcpv4ReplySpec.bootpFixed, List.append_assoc, copy32_append_right,
      List.length_cons, List.length_nil, length_putBe32, List.length_replicate, length_bytes32,
      Nat.reduceAdd, Nat.reduceSub, copy32_bytes32]
  · rfl
  · rfl
  · rfl

theorem secsFlags_fixed :
    readBe16 (spec.bootpFixed ++ rest) 8 = 0 ∧ readBe16 (spec.bootpFixed ++ rest) 10 = 0 := by
  constructor <;>
    simp (disch := simp) only [Dhcpv4ReplySpec.bootpFixed, List.append_assoc, readBe16, readBe_append_right,
      List.length_cons, List.length_nil, length_putBe32, Nat.reduceAdd, Nat.reduceSub]
  · rfl
  · rfl

/-- The fields from `chaddr` on, behind the first 28 bytes. -/
theorem fixed_pieces :
    ∃ head : List UInt8, head.length = 28 ∧ spec.bootpFixed ++ rest =
      head ++ (spec.chaddr.toList ++ (List.replicate 10 0 ++ (spec.sname ++ (spec.file ++
        ([0x63, 0x82, 0x53, 0x63] ++ rest))))) := by
  refine ⟨[2, 1, 6, 0] ++ (putBe32 spec.xid ++ (List.replicate 8 0 ++ (bytes32 spec.wireYiaddrBe ++
    List.replicate 8 0))), by simp, ?_⟩
  simp only [Dhcpv4ReplySpec.bootpFixed, List.append_assoc]

theorem chaddr_fixed :
    ((spec.bootpFixed ++ rest).drop 28).take 16 = spec.chaddr.toList ++ List.replicate 10 0 ∧
      ((spec.bootpFixed ++ rest).drop 28).take 6 = spec.chaddr.toList := by
  obtain ⟨head, hhead, hpieces⟩ := fixed_pieces spec rest
  rw [hpieces, List.drop_left' hhead]
  constructor
  · rw [← List.append_assoc]
    exact List.take_left' (by simp)
  · exact List.take_left' (by simp)

theorem length_regions : spec.sname.length = 64 ∧ spec.file.length = 128 :=
  ⟨ByteBuffer.length_resize _ _, ByteBuffer.length_resize _ _⟩

/-- A piece behind others of its offset's length. -/
theorem slice_append {before piece : List UInt8} (tail : List UInt8) {off len : Nat} (hoff : before.length = off)
    (hlen : piece.length = len) : ((before ++ (piece ++ tail)).drop off).take len = piece := by
  rw [List.drop_left' hoff, List.take_left' hlen]

theorem regions_fixed :
    ((spec.bootpFixed ++ rest).drop 44).take 64 = spec.sname ∧
      ((spec.bootpFixed ++ rest).drop 108).take 128 = spec.file := by
  obtain ⟨head, hhead, hpieces⟩ := fixed_pieces spec rest
  obtain ⟨hsname, hfile⟩ := length_regions spec
  rw [hpieces]
  constructor
  · have h := slice_append (spec.file ++ ([0x63, 0x82, 0x53, 0x63] ++ rest))
      (show (head ++ (spec.chaddr.toList ++ List.replicate 10 0)).length = 44 by simp [hhead]) hsname
    simpa only [List.append_assoc] using h
  · have h := slice_append ([0x63, 0x82, 0x53, 0x63] ++ rest)
      (show (head ++ (spec.chaddr.toList ++ (List.replicate 10 0 ++ spec.sname))).length = 108 by
        simp [hhead, hsname]) hfile
    simpa only [List.append_assoc] using h

theorem cookie_fixed :
    readBe32 (spec.bootpFixed ++ rest) kMagicCookieOff = kMagicCookie ∧
      ((spec.bootpFixed ++ rest).drop 236).take 4 = [0x63, 0x82, 0x53, 0x63] := by
  have hslice : ((spec.bootpFixed ++ rest).drop 236).take 4 = [0x63, 0x82, 0x53, 0x63] := by
    obtain ⟨head, hhead, hpieces⟩ := fixed_pieces spec rest
    obtain ⟨hsname, hfile⟩ := length_regions spec
    have h := slice_append rest
      (show (head ++ (spec.chaddr.toList ++ (List.replicate 10 0 ++ (spec.sname ++ spec.file)))).length = 236
        by simp [hhead, hsname, hfile])
      (show [0x63, 0x82, 0x53, (0x63 : UInt8)].length = 4 from rfl)
    rw [hpieces]
    simpa only [List.append_assoc] using h
  refine ⟨?_, hslice⟩
  rw [readBe32, readBe, kMagicCookieOff, hslice]
  rfl

end Fixed

/-! ## The client's reading -/

section Client

variable (spec : Dhcpv4ReplySpec)

/-- `extract_router_from` finds the router of a region, or leaves what it was given. -/
theorem extractRouterFrom_eq (region : List UInt8) (routerBe : UInt32) :
    extractRouterFrom region routerBe = (routerIn region).getD routerBe := by
  rw [extractRouterFrom, routerIn, optionOfLen, findDhcpOption_eq]
  cases firstValue region 3 with
  | none => rfl
  | some value =>
    have hcopy : copy32 (value.take 4) 0 = copy32 value 0 := by
      rw [copy32, copy32, List.drop_zero, List.drop_zero, List.take_take, Nat.min_self]
    by_cases hlen : 4 ≤ value.length
    · simp [Option.filter_some, hlen, hcopy]
    · simp [Option.filter_some, hlen]

theorem padded_eq_resize {payload : List UInt8} {len : Nat} (h : payload.length ≤ len) :
    padded payload len = ByteBuffer.resize payload len := by
  rw [padded, ByteBuffer.resize, List.take_of_length_le h]

variable {opts : List UInt8} (hopts : (dhcpItems opts).1 = replyItems spec)
include hopts

/-- The options the client looks for, in options that hold the items of a reply. -/
theorem optionOfLen_reply :
    optionOfLen opts 53 1 = some [spec.messageType] ∧
    optionOfLen opts 54 4 = some (bytes32 spec.serverIdBe) ∧
    optionOfLen opts 51 4 =
      (if spec.messageType ≠ kDhcpNak ∧ spec.leaseTimeSeconds ≠ 0 then some (putBe32 spec.leaseTimeSeconds)
        else none) ∧
    optionOfLen opts 52 1 =
      (if spec.option52Overload ≠ 0 then some [spec.option52Overload] else none) ∧
    routerIn opts = none := by
  have hread : ∀ code len, optionOfLen opts code len =
      ((((replyItems spec).find? fun it => it.1 = code).map Prod.snd).map (·.take len)).filter
        fun value => value.length = len := by
    intro code len
    rw [optionOfLen, findDhcpOption_eq, firstValue, hopts]
  have hlease : (putBe32 spec.leaseTimeSeconds).take 4 = putBe32 spec.leaseTimeSeconds :=
    List.take_of_length_le (length_putBe32 _).le
  have hserver : (bytes32 spec.serverIdBe).take 4 = bytes32 spec.serverIdBe :=
    List.take_of_length_le (length_bytes32 _).le
  rw [routerIn, firstValue, hopts, hread, hread, hread, hread, replyItems]
  refine ⟨by simp, by simp [hserver], ?_, ?_, ?_⟩
  · split_ifs <;> simp [hlease]
  · split_ifs <;> simp
  · split_ifs <;> simp

/-- The router is the one carried, where the regions are the padded payloads. -/
theorem routerOf_reply {bp : List UInt8} (hsname : (bp.drop 44).take 64 = padded spec.snamePayload 64)
    (hfile : (bp.drop 108).take 128 = padded spec.filePayload 128) :
    routerOf bp opts = carriedRouterBe spec := by
  obtain ⟨-, -, -, h52, h3⟩ := optionOfLen_reply spec hopts
  simp only [routerOf, extractRouterFrom_eq, h52, h3, hsname, hfile, carriedRouterBe]
  by_cases hoverload : spec.option52Overload = 0
  · simp [hoverload]
  · rw [if_pos hoverload]
    by_cases hbit0 : spec.option52Overload &&& 0x01 = 0 <;>
      by_cases hbit1 : spec.option52Overload &&& 0x02 = 0 <;>
        simp [hbit0, hbit1]

omit hopts

theorem length_replyItems_le : ((replyItems spec).flatMap fun it => Tlv.item it.1 it.2).length ≤ 24 := by
  unfold replyItems
  split_ifs <;> simp [Tlv.item]

theorem wireYiaddrBe_eq :
    spec.wireYiaddrBe = if spec.messageType = kDhcpNak then 0 else spec.yiaddrBe := by
  have hnak : spec.isNak = decide (spec.messageType = kDhcpNak) := rfl
  rw [Dhcpv4ReplySpec.wireYiaddrBe, hnak]
  simp

/-- A lease time of zero is not sent, and read as zero. -/
theorem lease_read :
    ((if spec.messageType ≠ kDhcpNak ∧ spec.leaseTimeSeconds ≠ 0 then some (putBe32 spec.leaseTimeSeconds)
      else none).map fun value => readBe32 value 0).getD 0 =
      if spec.messageType = kDhcpNak then 0 else spec.leaseTimeSeconds := by
  have hread : readBe32 (putBe32 spec.leaseTimeSeconds) 0 = spec.leaseTimeSeconds := by
    have h := readBe_putBe32 spec.leaseTimeSeconds []
    rw [List.append_nil] at h
    rw [readBe32, h, UInt32.ofNat_toNat]
  by_cases hnak : spec.messageType = kDhcpNak <;> by_cases hzero : spec.leaseTimeSeconds = 0 <;>
    simp [hnak, hzero, hread]

/-- **The client takes from the payload what the reply is to say**, the part of it that it receives. -/
theorem pollForReply_reply (hsname : spec.snamePayload.length ≤ 64) (hfile : spec.filePayload.length ≤ 128)
    {gate : ReplyGate} (h : Awaits spec gate) (later : List (List UInt8)) :
    pollForReply gate ((spec.bootpFixed ++ spec.options) :: later) = some (expectedReply spec) := by
  have hcut : (spec.bootpFixed ++ spec.options).take kRecvBufferLen =
      spec.bootpFixed ++ spec.options.take (2048 - 240) := by
    rw [List.take_append, spec.length_bootpFixed, List.take_of_length_le]
    · rfl
    · rw [spec.length_bootpFixed]
      decide
  have hitems := dhcpItems_take_options spec (Nat.le_trans (length_replyItems_le spec)
    (show 24 ≤ 2048 - 240 by decide))
  have hlong : 10 ≤ (spec.options.take (2048 - 240)).length := by
    have hnatural := spec.naturalOptsLen_bounds
    rw [List.length_take, spec.length_options, Dhcpv4ReplySpec.optsLen]
    omega
  rw [pollForReply, List.findSome?_cons, hcut]
  generalize spec.options.take (2048 - 240) = opts at hitems hlong
  obtain ⟨h53, h54, h51, -, -⟩ := optionOfLen_reply spec hitems
  obtain ⟨hregion, hregion'⟩ := regions_fixed spec opts
  have hrouter := routerOf_reply spec hitems
    (hregion.trans (padded_eq_resize hsname).symm) (hregion'.trans (padded_eq_resize hfile).symm)
  have hdrop : (spec.bootpFixed ++ opts).drop kBootpFixedLen = opts := List.drop_left' spec.length_bootpFixed
  have hread : gate.read (spec.bootpFixed ++ opts) = some (expectedReply spec) := by
    rw [ReplyGate.read, if_neg, if_neg, if_neg, if_neg, if_neg]
    · have hyiaddr : copy32 (spec.bootpFixed ++ opts) 16 =
          if spec.messageType = kDhcpNak then 0 else spec.yiaddrBe := by
        rw [(addrs_fixed spec opts).2.1, wireYiaddrBe_eq]
      have hserver : copy32 (bytes32 spec.serverIdBe) 0 = spec.serverIdBe := by
        simpa using copy32_bytes32 spec.serverIdBe []
      have hlease : ((optionOfLen opts 51 4).map fun value => readBe32 value 0).getD 0 =
          if spec.messageType = kDhcpNak then 0 else spec.leaseTimeSeconds := by
        rw [h51]
        exact lease_read spec
      simp only [hdrop, h53, h54, hlease, hyiaddr, hrouter, Option.map_some, Option.getD_some, hserver]
      rw [if_neg]
      · rfl
      · rintro ⟨hany, hother, -⟩
        rcases h.msgType with hzero | hsame
        · exact hany hzero
        · exact hother hsame.symm
    · rw [(cookie_fixed spec opts).2]
      exact not_not.mpr rfl
    · rw [(chaddr_fixed spec opts).2, h.chaddr]
      exact not_not.mpr rfl
    · rw [(xid_fixed spec opts).2, h.xid]
      exact fun hne => hne.1 rfl
    · exact not_not.mpr rfl
    · rw [List.length_append, spec.length_bootpFixed]
      change ¬ 240 + opts.length < 240 + 4
      omega
  rw [hread]

end Client

/-! ## The harness's reading -/

section Harness

variable (spec : Dhcpv4ReplySpec)

/-- The IPv4 header the builder writes, as a spec of the frame builder. -/
def replyIpv4Spec : Ipv4FrameSpec :=
  { srcMac := spec.ethSrc, dstMac := spec.ethDst, srcIp := spec.srcIpBe, dstIp := spec.dstIpBe, ttl := 64
    ipId := 0, ipProtocol := 0x11 }

theorem reply_ip_eq (checksum : UInt16) :
    spec.ip checksum = (replyIpv4Spec spec).ipHdr spec.udpLen checksum := by
  simp [Dhcpv4ReplySpec.ip, replyIpv4Spec, Ipv4FrameSpec.ipHdr, Ipv4FrameSpec.paddedOptions,
    Ipv4FrameSpec.flagsAndOffset, Ipv4FrameSpec.ipHeaderLen, Stimulus.optionsPadding, Dhcpv4ReplySpec.ipLen]
  exact ⟨rfl, rfl⟩

/-- What IPv4 carries. -/
def replyDatagram : List UInt8 :=
  udpPlain kDhcpServerPort kDhcpClientPort (spec.bootpFixed ++ spec.options)
    (udpChecksum spec.srcIpBe spec.dstIpBe spec.udp)

theorem reply_udp_eq (checksum : UInt16) :
    spec.udp checksum =
      udpPlain kDhcpServerPort kDhcpClientPort (spec.bootpFixed ++ spec.options) checksum := by
  rw [Dhcpv4ReplySpec.udp, udpPlain, spec.length_bootp, Dhcpv4ReplySpec.udpLen, Nat.add_assoc]

theorem length_replyDatagram : (replyDatagram spec).length = spec.udpLen := by
  rw [replyDatagram, Stimulus.length_udpPlain, spec.length_bootp, Dhcpv4ReplySpec.udpLen, Nat.add_assoc]

theorem buildDhcpv4Reply_eq :
    buildDhcpv4Reply spec = ethernetFrame spec.ethDst spec.ethSrc kEtherTypeIpv4
      ((replyIpv4Spec spec).ipHdr (replyDatagram spec).length (inetChecksum spec.ip) ++
        replyDatagram spec) := by
  have hip : writeBe16 spec.ip 10 (inetChecksum spec.ip) = spec.ip (inetChecksum spec.ip) :=
    writeBe16_append _ _ _ _ (by simp)
  have hudp : writeBe16 spec.udp 6 (udpChecksum spec.srcIpBe spec.dstIpBe spec.udp) = replyDatagram spec := by
    rw [replyDatagram, ← reply_udp_eq]
    exact writeBe16_append _ _ _ _ (by simp)
  rw [buildDhcpv4Reply, hip, hudp, length_replyDatagram, ← reply_ip_eq, ethernetFrame]

/-- What the decoders hand on of a reply. -/
theorem decode_reply :
    ∃ eth ip, decodeEthernet (buildDhcpv4Reply spec) = some eth ∧
      eth.payload = spec.ip (inetChecksum spec.ip) ++ replyDatagram spec ∧
      decodeIpv4Header eth.payload = some ip ∧
      Stimulus.CarriesFrame (replyIpv4Spec spec) none (replyDatagram spec) eth ip ∧
      ip.fragmented = false ∧ ip.headerLen = 20 ∧ l4Of eth ip = replyDatagram spec := by
  have htotal : 20 + (replyDatagram spec).length ≤ 65535 := by
    have hle := spec.ipLen_le
    rwa [Dhcpv4ReplySpec.ipLen, ← length_replyDatagram] at hle
  have h := Stimulus.decode_whole (show (replyIpv4Spec spec).ipOptions = [] from rfl) rfl rfl htotal
    (inetChecksum spec.ip)
  rw [length_replyDatagram, ← reply_ip_eq] at h
  rw [buildDhcpv4Reply_eq, length_replyDatagram, ← reply_ip_eq]
  exact h

theorem decodeUdp_reply :
    decodeUdp (replyDatagram spec) = some ⟨kDhcpServerPort, kDhcpClientPort, UInt16.ofNat spec.udpLen,
      udpChecksum spec.srcIpBe spec.dstIpBe spec.udp, some (spec.bootpFixed ++ spec.options)⟩ := by
  have hne : spec.bootpFixed ++ spec.options ≠ [] := by simp [Dhcpv4ReplySpec.bootpFixed]
  rw [replyDatagram, Stimulus.decodeUdp_of_ne_nil hne, spec.length_bootp, Dhcpv4ReplySpec.udpLen,
    Nat.add_assoc]

/-- The Total Length: the message's own length, or more when that was asked for. -/
theorem ipLen_reply : spec.ipLen = max (naturalLength spec) spec.ipDatagramTotalBytes.toNat := by
  have hlen := congrArg List.length (options_eq spec)
  rw [spec.length_options, Dhcpv4ReplySpec.optsLen, List.length_append, List.length_append,
    List.length_replicate, List.length_singleton] at hlen
  rw [spec.ipLen_eq, naturalLength, Stimulus.kBootpFixedLen]
  congr 1
  omega

theorem inetChecksumValid_reply : inetChecksumValid (spec.ip (inetChecksum spec.ip)) = true :=
  inetChecksumValid_append _ (by simp)

theorem udpChecksumValid_reply :
    udpChecksumValid spec.srcIpBe spec.dstIpBe (writeBe16 (replyDatagram spec) 6 0)
      (udpChecksum spec.srcIpBe spec.dstIpBe spec.udp) = true := by
  have hzeroed : writeBe16 (replyDatagram spec) 6 0 = spec.udp := by
    rw [replyDatagram, reply_udp_eq]
    exact writeBe16_append _ _ _ _ (by simp)
  rw [udpChecksumValid, hzeroed]
  simp

theorem messageType_replyItems :
    (replyItems spec).foldl messageTypeStep none = some spec.messageType := by
  unfold replyItems
  split_ifs <;> simp [messageTypeStep]

/-- A NAK has neither a lease time nor a mask. -/
theorem optionAbsent_nak (hnak : spec.messageType = kDhcpNak) :
    Tlv.outcome (fun c _ => if c = 51 then some false else none) true false (replyItems spec, .marker) = true ∧
    Tlv.outcome (fun c _ => if c = 1 then some false else none) true false (replyItems spec, .marker) = true := by
  unfold replyItems Tlv.outcome
  by_cases hoverload : spec.option52Overload = 0 <;> simp [hnak, hoverload]

/-- The frame the pipeline makes of a reply. -/
theorem carriesReply_frame {uf : UdpFrame} (hethDst : uf.ethDst = spec.ethDst.toList)
    (hethSrc : uf.ethSrc = spec.ethSrc.toList) (hsrc : uf.srcIp = spec.srcIpBe)
    (hdst : uf.dstIp = spec.dstIpBe)
    (hports : uf.udp.srcPort = kDhcpServerPort ∧ uf.udp.dstPort = kDhcpClientPort) :
    CarriesReply spec (dhcpv4FrameFrom uf (spec.bootpFixed ++ spec.options)) := by
  have hcookie := (cookie_fixed spec spec.options).1
  have hoptions : (dhcpv4FrameFrom uf (spec.bootpFixed ++ spec.options)).options = spec.options := by
    simp only [dhcpv4FrameFrom, hcookie, beq_self_eq_true, if_true]
    exact List.drop_left' spec.length_bootpFixed
  have hitems : dhcpItems (dhcpv4FrameFrom uf (spec.bootpFixed ++ spec.options)).options =
      (replyItems spec, .marker) := by
    rw [hoptions]
    exact dhcpItems_options_reply spec
  have hread : (dhcpv4FrameFrom uf (spec.bootpFixed ++ spec.options)).messageType = some spec.messageType ∧
      (dhcpv4FrameFrom uf (spec.bootpFixed ++ spec.options)).lastOptionIsEnd = true := by
    rw [← Prod.mk.injEq, ← walkDhcpOptions_dhcpv4FrameFrom, walkDhcpOptions_eq, List.drop_zero]
    change ((dhcpItems _).1.foldl messageTypeStep none, decide ((dhcpItems _).2 = .marker)) = _
    rw [hitems, messageType_replyItems]
    rfl
  have hlast : spec.options.getLast? = some 0xFF := by
    rw [options_eq, ← List.append_assoc]
    exact List.getLast?_concat
  obtain ⟨hciaddr, hyiaddr, hsiaddr, hgiaddr⟩ := addrs_fixed spec spec.options
  have hhead := head_fixed spec spec.options
  have hxid := (xid_fixed spec spec.options).1
  have hsecs := secsFlags_fixed spec spec.options
  have hchaddr := (chaddr_fixed spec spec.options).1
  -- From here on the message is only what these facts say of it.
  generalize spec.bootpFixed ++ spec.options = bp at *
  exact
    { ethDst := hethDst
      ethSrc := hethSrc
      srcIp := hsrc
      dstIp := hdst
      ports := hports
      bootp := hhead
      xid := hxid
      secsFlags := hsecs
      yiaddr := hyiaddr.trans (wireYiaddrBe_eq spec)
      otherAddrs := ⟨hciaddr, hsiaddr, hgiaddr⟩
      chaddr := hchaddr
      magicCookieValid := by simp [dhcpv4FrameFrom, hcookie]
      messageType := hread.1
      items := hitems
      lastOptionIsEnd := ⟨hread.2, by rw [hoptions, hlast]⟩
      nak := fun hnak => by
        rw [Dhcpv4Frame.optionAbsent_eq, Dhcpv4Frame.optionAbsent_eq, hitems]
        exact optionAbsent_nak spec hnak }

/-- **A reply reads back.** For every spec whose payloads fit their fields: the checksums of the frame are
valid and its Total Length is the message's own length or the one asked for, whichever is more; a client that
waits for the reply takes from the payload of the datagram the address, the server, the lease time and the
router that Option 52 points to; and the pipeline hands the frame on as one DHCP frame with the fields and
the options of the spec, END the last of them. -/
theorem reply_round_trip {σ φ : Type} (env : Env σ φ) (s : Pipeline σ φ) (spec : Dhcpv4ReplySpec)
    (hsname : spec.snamePayload.length ≤ 64) (hfile : spec.filePayload.length ≤ 128)
    (hserver : env.controlPlanePort ≠ kDhcpServerPort)
    (hclient : env.controlPlanePort ≠ kDhcpClientPort) :
    (∃ eth ip udp bp, decodeEthernet (buildDhcpv4Reply spec) = some eth ∧
      decodeIpv4Header eth.payload = some ip ∧ decodeUdp (l4Of eth ip) = some udp ∧ udp.payload = some bp ∧
      ip.totalLength.toNat = max (naturalLength spec) spec.ipDatagramTotalBytes.toNat ∧
      inetChecksumValid (eth.payload.take ip.headerLen) = true ∧
      udpChecksumValid ip.srcBe ip.dstBe (writeBe16 (l4Of eth ip) 6 0) udp.checksum = true ∧
      ∀ gate later, Awaits spec gate → pollForReply gate (bp :: later) = some (expectedReply spec)) ∧
    ∀ f : PcapFrame, f.bytes = buildDhcpv4Reply spec → f.len ≤ f.bytes.length →
      f.datalink = kDltEn10mb → (∀ c ∈ (processFrame env s f).calls, c.threw = none) →
      ∃ df, dhcpv4Events (processFrame env s f).calls = [df] ∧ CarriesReply spec df := by
  obtain ⟨eth, ip, heth, hpayload, hip, hcarries, hfragmented, hheader, hl4⟩ := decode_reply spec
  have hudp := decodeUdp_reply spec
  rw [← hl4] at hudp
  constructor
  · have htotal : ip.totalLength.toNat = spec.ipLen := by
      rw [hcarries.ipv4.totalLength, length_replyDatagram, Stimulus.ipHeaderLen_of_nil rfl]
      rfl
    have hhead : eth.payload.take ip.headerLen = spec.ip (inetChecksum spec.ip) := by
      rw [hpayload, hheader]
      exact List.take_left' (by simp [Dhcpv4ReplySpec.ip])
    refine ⟨eth, ip, _, _, heth, hip, hudp, rfl, htotal.trans (ipLen_reply spec), ?_, ?_, ?_⟩
    · rw [hhead]
      exact inetChecksumValid_reply spec
    · rw [hcarries.ipv4.src, hcarries.ipv4.dst, hl4]
      exact udpChecksumValid_reply spec
    · exact fun gate later h => pollForReply_reply spec hsname hfile h later
  · intro f hbytes hlen hlink hreturned
    have hbootp : kOptionsOff ≤ (spec.bootpFixed ++ spec.options).length := by
      rw [spec.length_bootp]
      exact Nat.le_add_right _ _
    refine ⟨_, processFrame_dhcpv4 hlink hlen (by rw [hbytes]; exact heth) hcarries.etherType hip
      hcarries.ipv4.protocol hfragmented hudp rfl rfl hbootp hserver.symm hclient.symm hreturned, ?_⟩
    exact carriesReply_frame spec hcarries.dstMac hcarries.srcMac hcarries.ipv4.src hcarries.ipv4.dst
      ⟨rfl, rfl⟩

/-- An ACK of 10.0.0.7 in 576 bytes, with the router 10.0.0.1 in `file`. -/
def ackSeven : Dhcpv4ReplySpec where
  srcIpBe := 0x0100000A
  xid := 0x01020304
  chaddr := #[2, 0, 0, 0, 0, 1].toVector
  messageType := 5
  yiaddrBe := 0x0700000A
  serverIdBe := 0x0100000A
  leaseTimeSeconds := 3600
  ipDatagramTotalBytes := 576
  option52Overload := 1
  filePayload := [3, 4, 10, 0, 0, 1, 255]

theorem reply_round_trip_ackSeven :
    (∃ eth ip udp bp, decodeEthernet (buildDhcpv4Reply ackSeven) = some eth ∧
      decodeIpv4Header eth.payload = some ip ∧ decodeUdp (l4Of eth ip) = some udp ∧ udp.payload = some bp ∧
      ip.totalLength.toNat = 576 ∧
      pollForReply ⟨.None, #v[2, 0, 0, 0, 0, 1], 0x04030201, 5⟩ [bp] =
        some ⟨0x0700000A, 0x0100000A, 3600, 5, 0x0100000A⟩) ∧
    ∃ df, dhcpv4Events (processFrame watchingEnv ⟨(), (), {}, 0, ∅, [], 0, 0, []⟩
      (captureOf (buildDhcpv4Reply ackSeven))).calls = [df] ∧
      df.yiaddr = 0x0700000A ∧ df.lastOptionIsEnd = true := by
  obtain ⟨⟨eth, ip, udp, bp, heth, hip, hudp, hbp, htotal, -, -, hpoll⟩, hdecoded⟩ :=
    reply_round_trip watchingEnv ⟨(), (), {}, 0, ∅, [], 0, 0, []⟩ ackSeven (by decide) (by decide)
      (by decide) (by decide)
  constructor
  · have hgate : Awaits ackSeven ⟨.None, #v[2, 0, 0, 0, 0, 1], 0x04030201, 5⟩ :=
      ⟨by decide +kernel, rfl, .inr rfl⟩
    have hreply : expectedReply ackSeven = ⟨0x0700000A, 0x0100000A, 3600, 5, 0x0100000A⟩ := by
      decide +kernel
    refine ⟨eth, ip, udp, bp, heth, hip, hudp, hbp, htotal.trans (by decide +kernel), ?_⟩
    rw [hpoll _ [] hgate, hreply]
  · have hcalls : (processFrame watchingEnv ⟨(), (), {}, 0, ∅, [], 0, 0, []⟩
        (captureOf (buildDhcpv4Reply ackSeven))).calls.all (fun c => c.threw.isNone) = true := by
      decide +kernel
    obtain ⟨df, hdf, hcarries⟩ := hdecoded (captureOf (buildDhcpv4Reply ackSeven)) rfl (Nat.le_refl _) rfl
      fun c hc => Option.isNone_iff_eq_none.1 (List.all_eq_true.1 hcalls c hc)
    exact ⟨df, hdf, hcarries.yiaddr.trans (by decide), hcarries.lastOptionIsEnd.1⟩

end Harness

end Tc8Harness.Dut
