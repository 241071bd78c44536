import Tc8Harness.Dissect.Pipeline
import Tc8Harness.Stimulus.FrameBuilder

/-!
# Built frames read back

The wire decoders on what the frame builders make, layer by layer: `decodeEthernet_frame` and
`decodeEthernet_tagged`, `decodeIpv4Header_built`, `decodeTcp_built` and `decodeUdp_built`. Each layer
hands the next one exactly the bytes it was built around, so `frame_round_trip` puts them together. The
fragment offset comes back as its low 13 bits and the tag's priority and identifier as their low 3 and
12: the builders mask them to the width of the field.
-/

namespace Tc8Harness.Stimulus

open BigEndian Wire Someip Dissect

/-! ## Fields of less than a byte -/

/-- Version and IHL in one byte. -/
theorem version_ihl (words : UInt8) :
    (0x40 ||| (words &&& 0x0F)) >>> 4 = 4 ∧ (0x40 ||| (words &&& 0x0F)) &&& 0x0F = words &&& 0x0F := by
  constructor <;> apply UInt8.eq_of_toBitVec_eq <;> ext i hi <;> interval_cases i <;> simp

/-- Data Offset over a clear reserved nibble. -/
theorem dataOffset_bits (words : UInt8) :
    (((words <<< 4) &&& 0xF0) ||| 0x00) >>> 4 = words &&& 0x0F := by
  apply UInt8.eq_of_toBitVec_eq
  ext i hi
  interval_cases i <;> simp

theorem toNat_ofNat_and_0x0F {n : Nat} (h : n < 16) : (UInt8.ofNat n &&& 0x0F).toNat = n := by
  rw [UInt8.toNat_and, UInt8.toNat_ofNat']
  change n % 2 ^ 8 &&& (2 ^ 4 - 1) = n
  rw [Nat.and_two_pow_sub_one_eq_mod]
  omega

theorem flags_bits (moreFragments : Bool) (high : UInt16) :
    ((if moreFragments then (0x20 : UInt8) else 0) ||| (high &&& 0x1F).toUInt8) >>> 5 =
      if moreFragments then 1 else 0 := by
  apply UInt8.eq_of_toBitVec_eq
  ext i hi
  cases moreFragments <;> interval_cases i <;> simp

/-- Two bytes read as a word. -/
theorem ofBE_pair (hi lo : UInt8) :
    UInt16.ofNat (ofBE [hi, lo]) = (hi.toUInt16 <<< 8) ||| lo.toUInt16 := by
  have hhi := hi.toNat_lt
  have hlo := lo.toNat_lt
  apply UInt16.toNat_inj.1
  rw [UInt16.toNat_ofNat', UInt16.toNat_or, UInt16.toNat_shiftLeft, UInt8.toNat_toUInt16,
    UInt8.toNat_toUInt16]
  change ((0 * 256 + hi.toNat) * 256 + lo.toNat) % 65536 = hi.toNat <<< 8 % 65536 ||| lo.toNat
  rw [Nat.shiftLeft_eq, Nat.mod_eq_of_lt (show hi.toNat * 2 ^ 8 < 65536 by omega),
    Nat.mul_comm hi.toNat, ← Nat.two_pow_add_eq_or_of_lt hlo]
  omega

theorem fragmentOffset_bits (moreFragments : Bool) (offset : UInt16) :
    UInt16.ofNat (ofBE
      [(if moreFragments then (0x20 : UInt8) else 0) |||
          (((offset &&& 0x1FFF) >>> 8) &&& 0x1F).toUInt8,
        ((offset &&& 0x1FFF) &&& 0xFF).toUInt8]) &&& 0x1FFF = offset &&& 0x1FFF := by
  rw [ofBE_pair]
  apply UInt16.eq_of_toBitVec_eq
  ext i hi
  cases moreFragments <;> interval_cases i <;> simp [-UInt16.toUInt16_toUInt8]

/-- The fields of the tag out of its halfword. -/
theorem dot1QTci_bits (pcp : UInt8) (dei : Bool) (vid : UInt16) :
    (dot1QTci pcp dei vid >>> 13).toUInt8 = pcp &&& 0x7 ∧
    (((dot1QTci pcp dei vid >>> 12) &&& 1) != 0) = dei ∧
    dot1QTci pcp dei vid &&& 0x0FFF = vid &&& 0x0FFF := by
  refine ⟨?_, ?_, ?_⟩
  · apply UInt8.eq_of_toBitVec_eq
    ext i hi
    cases dei <;> interval_cases i <;> simp [dot1QTci]
  · have hbit : (dot1QTci pcp dei vid >>> 12) &&& 1 = if dei then 1 else 0 := by
      apply UInt16.eq_of_toBitVec_eq
      ext i hi
      cases dei <;> interval_cases i <;> simp [dot1QTci]
    rw [hbit]
    cases dei <;> rfl
  · apply UInt16.eq_of_toBitVec_eq
    ext i hi
    cases dei <;> interval_cases i <;> simp [dot1QTci]

/-! ## Ethernet -/

section Ethernet

variable (dst src : Vector UInt8 6) (etherType : UInt16) (payload : List UInt8)

def ethernetFrame : List UInt8 := dst.toList ++ (src.toList ++ (putBe16 etherType ++ payload))

theorem decodeEthernet_frame (h : etherType ≠ kEtherTypeDot1Q) :
    decodeEthernet (ethernetFrame dst src etherType payload) =
      some ⟨dst.toList, src.toList, etherType, none, payload⟩ := by
  have hlen : ¬ (ethernetFrame dst src etherType payload).length < kEthernetHeaderLen := by
    simp [ethernetFrame, kEthernetHeaderLen]
    omega
  have htype : readBe16 (ethernetFrame dst src etherType payload) 12 = etherType := by
    simp (disch := simp) only [readBe16, ethernetFrame, readBe_append_right, Vector.length_toList,
      Nat.reduceSub, readBe_putBe16, UInt16.ofNat_toNat]
  rw [decodeEthernet, if_neg hlen]
  simp only [htype, if_neg h, kEthernetHeaderLen]
  simp [ethernetFrame, List.drop_append, List.drop_eq_nil_of_le]

/-- The tag stands between the addresses and the type. -/
theorem withDot1QTag_frame (pcp : UInt8) (dei : Bool) (vid tpid : UInt16) :
    withDot1QTag (ethernetFrame dst src etherType payload) pcp dei vid tpid =
      some (ethernetFrame dst src tpid (putBe16 (dot1QTci pcp dei vid) ++
        (putBe16 etherType ++ payload))) := by
  have hlen : ¬ (ethernetFrame dst src etherType payload).length < 14 := by
    simp [ethernetFrame]
    omega
  rw [withDot1QTag, if_neg hlen]
  simp [ethernetFrame, List.take_append, List.drop_append, List.take_of_length_le,
    List.drop_eq_nil_of_le]

theorem decodeEthernet_tagged (pcp : UInt8) (dei : Bool) (vid : UInt16) :
    decodeEthernet (ethernetFrame dst src kDot1QTpid (putBe16 (dot1QTci pcp dei vid) ++
        (putBe16 etherType ++ payload))) =
      some ⟨dst.toList, src.toList, etherType, some ⟨pcp &&& 0x7, dei, vid &&& 0x0FFF⟩, payload⟩ := by
  generalize hp : ethernetFrame dst src kDot1QTpid (putBe16 (dot1QTci pcp dei vid) ++
    (putBe16 etherType ++ payload)) = p
  have hlen : 18 ≤ p.length := by
    simp [← hp, ethernetFrame]
    omega
  have htpid : readBe16 p 12 = kEtherTypeDot1Q := by
    simp (disch := simp) only [← hp, readBe16, ethernetFrame, readBe_append_right,
      Vector.length_toList, Nat.reduceSub, readBe_putBe16, UInt16.ofNat_toNat]
    rfl
  have htci : readBe16 p 14 = dot1QTci pcp dei vid := by
    simp (disch := simp) only [← hp, readBe16, ethernetFrame, readBe_append_right,
      Vector.length_toList, length_putBe16, Nat.reduceSub, readBe_putBe16, UInt16.ofNat_toNat]
  have htype : readBe16 p 16 = etherType := by
    simp (disch := simp) only [← hp, readBe16, ethernetFrame, readBe_append_right,
      Vector.length_toList, length_putBe16, Nat.reduceSub, readBe_putBe16, UInt16.ofNat_toNat]
  have hpieces : p.take 6 = dst.toList ∧ (p.drop 6).take 6 = src.toList ∧ p.drop 18 = payload := by
    simp [← hp, ethernetFrame, List.drop_append, List.drop_eq_nil_of_le]
  obtain ⟨hpcp, hdei, hvid⟩ := dot1QTci_bits pcp dei vid
  rw [decodeEthernet, if_neg (by rw [kEthernetHeaderLen]; omega)]
  simp only [htpid, if_true]
  rw [if_neg (by simp only [kEthernetHeaderLen, kDot1QTagLen]; omega), htci, htype, hpcp, hdei, hvid,
    hpieces.1, hpieces.2.1]
  exact congrArg (fun rest => some (EthernetFrame.mk _ _ _ _ rest)) hpieces.2.2

end Ethernet

/-! ## IPv4 -/

theorem length_padded (raw : List UInt8) (pad : UInt8) :
    (raw ++ List.replicate (optionsPadding raw.length) pad).length % 4 = 0 := by
  rw [List.length_append, List.length_replicate, optionsPadding]
  omega

theorem length_padded_le {raw : List UInt8} (pad : UInt8) (h : raw.length ≤ 40) :
    (raw ++ List.replicate (optionsPadding raw.length) pad).length ≤ 40 := by
  rw [List.length_append, List.length_replicate, optionsPadding]
  omega

/-- What the decoder says of a header built from the spec around the payload. -/
structure CarriesIpv4 (spec : Ipv4FrameSpec) (payload p : List UInt8) (ip : Ipv4Header) : Prop where
  version : ip.version = 4
  headerLen : ip.headerLen = spec.ipHeaderLen
  totalLength : ip.totalLength.toNat = spec.ipHeaderLen + payload.length
  id : ip.identification = spec.ipId
  moreFragments : ip.flags = if spec.moreFragments then 1 else 0
  fragmentOffset : ip.fragmentOffset = spec.fragmentOffset &&& 0x1FFF
  ttl : ip.ttl = spec.ttl
  protocol : ip.protocol = spec.ipProtocol
  src : ip.srcBe = spec.srcIp
  dst : ip.dstBe = spec.dstIp
  options : ip.optionsArea p = spec.paddedOptions
  payload : (p.drop ip.headerLen).take (ipv4PayloadLen ip p.length) = payload

section Ipv4

variable {spec : Ipv4FrameSpec} {payload : List UInt8}

/-- A Total Length that counts all bytes there are leaves the payload as it is. -/
theorem payload_of_lengths {ip : Ipv4Header} {p : List UInt8} {n : Nat} (hheader : ip.headerLen = n)
    (htotal : ip.totalLength.toNat = n + payload.length) (hlen : p.length = n + payload.length)
    (hpayload : (p.drop n).take payload.length = payload) :
    (p.drop ip.headerLen).take (ipv4PayloadLen ip p.length) = payload := by
  have hbound : ipv4PayloadLen ip p.length = payload.length := by
    rw [ipv4PayloadLen, hheader, htotal, hlen, if_neg (by omega), Nat.add_sub_cancel_left,
      Nat.min_self]
  rw [hbound, hheader, hpayload]

theorem decodeIpv4Header_built (hopt : spec.ipOptions.length ≤ 40)
    (htotal : spec.ipHeaderLen + payload.length ≤ 65535) (checksum : UInt16) :
    ∃ ip, decodeIpv4Header (spec.ipHdr payload.length checksum ++ payload) = some ip ∧
      CarriesIpv4 spec payload (spec.ipHdr payload.length checksum ++ payload) ip := by
  have hpadded := length_padded_le 0x00 hopt
  have haligned := length_padded spec.ipOptions 0x00
  have hlen : (spec.ipHdr payload.length checksum ++ payload).length =
      spec.ipHeaderLen + payload.length := by rw [List.length_append, length_ipHdr]
  have hwords : spec.ipHeaderLen / 4 * 4 = spec.ipHeaderLen ∧ spec.ipHeaderLen / 4 < 16 := by
    rw [Ipv4FrameSpec.ipHeaderLen, Ipv4FrameSpec.paddedOptions]
    omega
  have hge : 20 ≤ spec.ipHeaderLen := Nat.le_add_right _ _
  generalize hp : spec.ipHdr payload.length checksum ++ payload = p at hlen ⊢
  have hfirst : p.getD 0 0 = 0x40 ||| (UInt8.ofNat (spec.ipHeaderLen / 4) &&& 0x0F) := by
    rw [← hp]
    rfl
  have hihl : (p.getD 0 0 &&& 0x0F).toNat * 4 = spec.ipHeaderLen := by
    rw [hfirst, (version_ihl _).2, toNat_ofNat_and_0x0F hwords.2, hwords.1]
  have hoptions : (p.drop 20).take (spec.ipHeaderLen - 20) = spec.paddedOptions := by
    simp [← hp, Ipv4FrameSpec.ipHdr, Ipv4FrameSpec.flagsAndOffset, List.drop_append,
      List.drop_eq_nil_of_le, Ipv4FrameSpec.ipHeaderLen]
  have hpayload : (p.drop spec.ipHeaderLen).take payload.length = payload := by
    rw [← hp, List.drop_left' (length_ipHdr spec payload.length checksum), List.take_length]
  have htotalLength : readBe16 p 2 = UInt16.ofNat (spec.ipHeaderLen + payload.length) := by
    simp (disch := simp) only [← hp, readBe16, Ipv4FrameSpec.ipHdr, List.append_assoc,
      readBe_append_right, List.length_cons, List.length_nil, Nat.reduceAdd, Nat.reduceSub,
      readBe_putBe16, UInt16.ofNat_toNat]
  have htoNat : (UInt16.ofNat (spec.ipHeaderLen + payload.length)).toNat =
      spec.ipHeaderLen + payload.length := by
    rw [UInt16.toNat_ofNat']
    exact Nat.mod_eq_of_lt (by omega)
  have hversion : p.getD 0 0 >>> 4 = 4 := by rw [hfirst, (version_ihl _).1]
  have hid : readBe16 p 4 = spec.ipId := by
    simp (disch := simp) only [← hp, readBe16, Ipv4FrameSpec.ipHdr, List.append_assoc,
      readBe_append_right, List.length_cons, List.length_nil, length_putBe16, Nat.reduceAdd,
      Nat.reduceSub, readBe_putBe16, UInt16.ofNat_toNat]
  have hflags : p.getD 6 0 >>> 5 = if spec.moreFragments then 1 else 0 := by
    rw [← flags_bits spec.moreFragments ((spec.fragmentOffset &&& 0x1FFF) >>> 8), ← hp]
    rfl
  have hoffset : readBe16 p 6 &&& 0x1FFF = spec.fragmentOffset &&& 0x1FFF := by
    rw [← fragmentOffset_bits spec.moreFragments spec.fragmentOffset, ← hp]
    rfl
  have hsrc : copy32 p 12 = spec.srcIp := by
    simp (disch := simp) only [← hp, Ipv4FrameSpec.ipHdr, Ipv4FrameSpec.flagsAndOffset,
      List.append_assoc, copy32_append_right, List.length_cons, List.length_nil, length_putBe16,
      Nat.reduceAdd, Nat.reduceSub, copy32_bytes32]
  have hdst : copy32 p 16 = spec.dstIp := by
    simp (disch := simp) only [← hp, Ipv4FrameSpec.ipHdr, Ipv4FrameSpec.flagsAndOffset,
      List.append_assoc, copy32_append_right, List.length_cons, List.length_nil, length_putBe16,
      length_bytes32, Nat.reduceAdd, Nat.reduceSub, copy32_bytes32]
  rw [decodeIpv4Header, if_neg (by rw [kIpv4FixedHeaderLen]; omega)]
  simp only [hihl]
  rw [if_neg (by rw [kIpv4FixedHeaderLen]; omega), hversion, htotalLength, hid, hflags, hoffset, hsrc,
    hdst]
  refine ⟨_, rfl, ?_⟩
  constructor
  case version => rfl
  case headerLen => exact hihl
  case totalLength => exact htoNat
  case id => rfl
  case moreFragments => rfl
  case fragmentOffset => rfl
  case ttl => rw [← hp]; rfl
  case protocol => rw [← hp]; rfl
  case src => rfl
  case dst => rfl
  case options => exact hoptions
  case payload => exact payload_of_lengths hihl htoNat hlen hpayload

end Ipv4

/-! ## TCP and UDP -/

/-- What the decoder says of a segment built from the spec. -/
structure CarriesTcp (spec : TcpSegmentSpec) (tcp : TcpSegment) : Prop where
  srcPort : tcp.srcPort = spec.srcPort
  dstPort : tcp.dstPort = spec.dstPort
  seq : tcp.seq = spec.seqNum
  ack : tcp.ack = spec.ackNum
  flags : tcp.flags = spec.flags
  window : tcp.window = spec.window
  urgentPointer : tcp.urgentPointer = spec.urgentPointer
  options : tcp.options.getD [] = spec.opts
  payload : tcp.payload.getD [] = spec.payload

theorem fields_seg (spec : TcpSegmentSpec) (checksum : UInt16) :
    readBe16 (spec.seg checksum) 0 = spec.srcPort ∧ readBe16 (spec.seg checksum) 2 = spec.dstPort ∧
    readBe32 (spec.seg checksum) 4 = spec.seqNum ∧ readBe32 (spec.seg checksum) 8 = spec.ackNum ∧
    readBe16 (spec.seg checksum) 14 = spec.window ∧
    readBe16 (spec.seg checksum) 18 = spec.urgentPointer := by
  refine ⟨?_, ?_, ?_, ?_, ?_, ?_⟩ <;>
    simp (disch := simp) only [readBe16, readBe32, TcpSegmentSpec.seg, List.append_assoc,
      readBe_append_right, List.length_cons, List.length_nil, length_putBe16, length_putBe32,
      Nat.reduceAdd, Nat.reduceSub, readBe_putBe16, readBe_putBe32, UInt16.ofNat_toNat,
      UInt32.ofNat_toNat]

theorem decodeTcp_built {spec : TcpSegmentSpec} (hplain : spec.Plain)
    (hopt : spec.options.length ≤ 40) (checksum : UInt16) :
    ∃ tcp, decodeTcp (spec.seg checksum) = some tcp ∧ CarriesTcp spec tcp := by
  have hpadded : spec.opts.length ≤ 40 := length_padded_le 0x01 hopt
  have haligned : spec.opts.length % 4 = 0 := length_padded spec.options 0x01
  have hlen := length_seg spec checksum
  generalize hp : spec.seg checksum = p at hlen
  have hbyte : p.getD 12 0 = spec.offsetByte := by
    rw [← hp]
    rfl
  have hwords : (p.getD 12 0 >>> 4).toNat * 4 = 20 + spec.opts.length := by
    rw [hbyte, TcpSegmentSpec.offsetByte, hplain.reserved, hplain.dataOffset]
    simp only [Option.map_none, Option.getD_none]
    rw [dataOffset_bits, toNat_ofNat_and_0x0F (by omega)]
    omega
  have hbody : p.drop 20 = spec.opts ++ spec.payload := by
    simp [← hp, TcpSegmentSpec.seg, List.drop_append, List.drop_eq_nil_of_le]
  obtain ⟨hsrc, hdst, hseq, hack, hwindow, hurgent⟩ := fields_seg spec checksum
  rw [hp] at hsrc hdst hseq hack hwindow hurgent
  rw [decodeTcp, if_neg (by rw [kTcpFixedHeaderLen]; omega)]
  simp only [hwords]
  rw [if_neg (by rw [kTcpFixedHeaderLen]; omega)]
  refine ⟨_, rfl, hsrc, hdst, hseq, hack, ?_, hwindow, hurgent, ?_, ?_⟩
  · rw [← hp]
    rfl
  · rw [getD_rest, kTcpFixedHeaderLen, List.drop_take, hbody, Nat.add_sub_cancel_left,
      List.take_left]
  · rw [getD_rest, ← List.drop_drop, hbody, List.drop_left]

/-- What the decoder says of a datagram built around the payload. -/
structure CarriesUdp (srcPort dstPort : UInt16) (payload : List UInt8) (udp : UdpDatagram) : Prop where
  srcPort : udp.srcPort = srcPort
  dstPort : udp.dstPort = dstPort
  length : udp.length = UInt16.ofNat (8 + payload.length)
  payload : udp.payload.getD [] = payload

theorem decodeUdp_udpPlain (srcPort dstPort : UInt16) (payload : List UInt8) (checksum : UInt16) :
    decodeUdp (udpPlain srcPort dstPort payload checksum) =
      some ⟨srcPort, dstPort, UInt16.ofNat (8 + payload.length), checksum,
        rest (udpPlain srcPort dstPort payload checksum) kUdpHeaderLen⟩ := by
  have hlen : ¬ (udpPlain srcPort dstPort payload checksum).length < kUdpHeaderLen := by
    simp [udpPlain, kUdpHeaderLen]
    omega
  have hfields : readBe16 (udpPlain srcPort dstPort payload checksum) 0 = srcPort ∧
      readBe16 (udpPlain srcPort dstPort payload checksum) 2 = dstPort ∧
      readBe16 (udpPlain srcPort dstPort payload checksum) 4 = UInt16.ofNat (8 + payload.length) ∧
      readBe16 (udpPlain srcPort dstPort payload checksum) 6 = checksum := by
    refine ⟨?_, ?_, ?_, ?_⟩ <;>
      simp (disch := simp) only [readBe16, udpPlain, List.append_assoc, readBe_append_right,
        length_putBe16, Nat.reduceSub, readBe_putBe16, UInt16.ofNat_toNat]
  rw [decodeUdp, if_neg hlen, hfields.1, hfields.2.1, hfields.2.2.1, hfields.2.2.2]

theorem drop_udpPlain (srcPort dstPort : UInt16) (payload : List UInt8) (checksum : UInt16) :
    (udpPlain srcPort dstPort payload checksum).drop kUdpHeaderLen = payload := by
  rw [kUdpHeaderLen]
  simp [udpPlain, List.drop_append, List.drop_eq_nil_of_le]

theorem decodeUdp_built (srcPort dstPort : UInt16) (payload : List UInt8) (checksum : UInt16) :
    ∃ udp, decodeUdp (udpPlain srcPort dstPort payload checksum) = some udp ∧
      CarriesUdp srcPort dstPort payload udp := by
  refine ⟨_, decodeUdp_udpPlain .., rfl, rfl, rfl, ?_⟩
  rw [getD_rest, drop_udpPlain]

/-! ## The whole frame -/

/-- The frame as it goes out, with the tag spliced in when there is one. -/
def tagged (tag : Option Dot1QFields) (frame : List UInt8) : Option (List UInt8) :=
  match tag with
  | none => some frame
  | some t => withDot1QTag frame t.pcp t.dei t.vid

/-- The fields of a tag cut to their widths. -/
def maskedTag (tag : Dot1QFields) : Dot1QFields := ⟨tag.pcp &&& 0x7, tag.dei, tag.vid &&& 0x0FFF⟩

/-- What the decoders say of the frame up to the payload of IPv4. -/
structure CarriesFrame (spec : Ipv4FrameSpec) (tag : Option Dot1QFields) (payload : List UInt8)
    (eth : EthernetFrame) (ip : Ipv4Header) : Prop where
  dstMac : eth.dst = spec.dstMac.toList
  srcMac : eth.src = spec.srcMac.toList
  etherType : eth.etherType = kEtherTypeIpv4
  dot1q : eth.dot1q = tag.map maskedTag
  ipv4 : CarriesIpv4 spec payload eth.payload ip

theorem buildIpv4Frame_plain {spec : Ipv4FrameSpec} (hplain : spec.Plain) (payload : List UInt8) :
    ∃ checksum, buildIpv4Frame spec payload =
      ethernetFrame spec.dstMac spec.srcMac kEtherTypeIpv4
        (spec.ipHdr payload.length checksum ++ payload) := by
  simp only [buildIpv4Frame, applyOverrides_plain hplain, writeBe16_ipHdr]
  exact ⟨_, rfl⟩

/-- Whatever the payload, the frame carries it. -/
theorem decode_buildIpv4Frame {spec : Ipv4FrameSpec} (hplain : spec.Plain)
    (hopt : spec.ipOptions.length ≤ 40) (tag : Option Dot1QFields) {payload : List UInt8}
    (htotal : spec.ipHeaderLen + payload.length ≤ 65535) :
    ∃ frame eth ip, tagged tag (buildIpv4Frame spec payload) = some frame ∧
      decodeEthernet frame = some eth ∧ decodeIpv4Header eth.payload = some ip ∧
      CarriesFrame spec tag payload eth ip := by
  obtain ⟨checksum, hframe⟩ := buildIpv4Frame_plain hplain payload
  obtain ⟨ip, hip, hcarries⟩ := decodeIpv4Header_built hopt htotal checksum
  rw [hframe]
  cases tag with
  | none =>
    exact ⟨_, _, ip, rfl, decodeEthernet_frame _ _ _ _ (by decide), hip,
      ⟨rfl, rfl, rfl, rfl, hcarries⟩⟩
  | some tag =>
    exact ⟨_, _, ip, withDot1QTag_frame .., decodeEthernet_tagged .., hip,
      ⟨rfl, rfl, rfl, rfl, hcarries⟩⟩

theorem ipHeaderLen_of_nil {spec : Ipv4FrameSpec} (h : spec.ipOptions = []) : spec.ipHeaderLen = 20 := by
  rw [Ipv4FrameSpec.ipHeaderLen, Ipv4FrameSpec.paddedOptions, h]
  rfl

/-- A frame without options that is not a fragment, read up to what IPv4 carries. -/
theorem decode_whole {spec : Ipv4FrameSpec} (hopt : spec.ipOptions = [])
    (hmore : spec.moreFragments = false) (hoffset : spec.fragmentOffset = 0) {payload : List UInt8}
    (htotal : 20 + payload.length ≤ 65535) (checksum : UInt16) :
    ∃ eth ip, decodeEthernet (ethernetFrame spec.dstMac spec.srcMac kEtherTypeIpv4
        (spec.ipHdr payload.length checksum ++ payload)) = some eth ∧
      eth.payload = spec.ipHdr payload.length checksum ++ payload ∧
      decodeIpv4Header eth.payload = some ip ∧ CarriesFrame spec none payload eth ip ∧
      ip.fragmented = false ∧ ip.headerLen = 20 ∧ l4Of eth ip = payload := by
  have hheader := ipHeaderLen_of_nil hopt
  obtain ⟨ip, hip, hcarries⟩ :=
    decodeIpv4Header_built (by rw [hopt]; exact Nat.zero_le 40) (by rwa [hheader]) checksum
  have hfragmented : ip.fragmented = false := by
    rw [Ipv4Header.fragmented, hcarries.moreFragments, hcarries.fragmentOffset, hmore, hoffset]
    rfl
  exact ⟨_, ip, decodeEthernet_frame _ _ _ _ (by decide), rfl, hip, ⟨rfl, rfl, rfl, rfl, hcarries⟩,
    hfragmented, hcarries.headerLen.trans hheader, hcarries.payload⟩

theorem decodeUdp_of_ne_nil {srcPort dstPort : UInt16} {payload : List UInt8} (hne : payload ≠ [])
    (checksum : UInt16) :
    decodeUdp (udpPlain srcPort dstPort payload checksum) =
      some ⟨srcPort, dstPort, UInt16.ofNat (8 + payload.length), checksum, some payload⟩ := by
  have hlen : (udpPlain srcPort dstPort payload checksum).length = kUdpHeaderLen + payload.length := by
    simp [udpPlain, kUdpHeaderLen]
    omega
  have hpos := List.length_pos_iff.mpr hne
  rw [decodeUdp_udpPlain, rest, if_pos (by omega), drop_udpPlain]

theorem buildTcpSegment_seg (srcIpBe dstIpBe : UInt32) (spec : TcpSegmentSpec) :
    ∃ checksum, buildTcpSegment srcIpBe dstIpBe spec = spec.seg checksum := by
  simp only [buildTcpSegment, writeBe16_seg]
  exact ⟨_, rfl⟩

theorem buildUdpDatagram_plain (srcIpBe dstIpBe : UInt32) (srcPort dstPort : UInt16)
    (payload : List UInt8) :
    ∃ checksum, buildUdpDatagram srcIpBe dstIpBe srcPort dstPort payload =
      udpPlain srcPort dstPort payload checksum := by
  simp only [buildUdpDatagram, buildUdpDatagramWithOverrides, writeBe16_udpPlain]
  exact ⟨_, rfl⟩

/-- **A built frame reads back.** With or without a tag, the decoders applied in turn return what a TCP
segment or a UDP datagram and the frame around it were built from, the fragment offset and the tag up
to the widths of their fields. -/
theorem frame_round_trip (spec : Ipv4FrameSpec) (hplain : spec.Plain)
    (hopt : spec.ipOptions.length ≤ 40) (tag : Option Dot1QFields) (srcIpBe dstIpBe : UInt32) :
    (∀ seg : TcpSegmentSpec, seg.Plain → seg.options.length ≤ 40 →
      spec.ipHeaderLen + (buildTcpSegment srcIpBe dstIpBe seg).length ≤ 65535 →
      ∃ frame eth ip tcp,
        tagged tag (buildIpv4Frame spec (buildTcpSegment srcIpBe dstIpBe seg)) = some frame ∧
        decodeEthernet frame = some eth ∧ decodeIpv4Header eth.payload = some ip ∧
        decodeTcp (l4Of eth ip) = some tcp ∧
        CarriesFrame spec tag (buildTcpSegment srcIpBe dstIpBe seg) eth ip ∧ CarriesTcp seg tcp) ∧
    (∀ srcPort dstPort payload,
      spec.ipHeaderLen + (buildUdpDatagram srcIpBe dstIpBe srcPort dstPort payload).length ≤ 65535 →
      ∃ frame eth ip udp,
        tagged tag (buildIpv4Frame spec
          (buildUdpDatagram srcIpBe dstIpBe srcPort dstPort payload)) = some frame ∧
        decodeEthernet frame = some eth ∧ decodeIpv4Header eth.payload = some ip ∧
        decodeUdp (l4Of eth ip) = some udp ∧
        CarriesFrame spec tag (buildUdpDatagram srcIpBe dstIpBe srcPort dstPort payload) eth ip ∧
        CarriesUdp srcPort dstPort payload udp) := by
  constructor
  · intro seg hseg hsegopt htotal
    obtain ⟨frame, eth, ip, hframe, heth, hip, hcarries⟩ :=
      decode_buildIpv4Frame hplain hopt tag htotal
    obtain ⟨checksum, hbuilt⟩ := buildTcpSegment_seg srcIpBe dstIpBe seg
    obtain ⟨tcp, htcp, hfields⟩ := decodeTcp_built hseg hsegopt checksum
    refine ⟨frame, eth, ip, tcp, hframe, heth, hip, ?_, hcarries, hfields⟩
    rw [l4Of, hcarries.ipv4.payload, hbuilt, htcp]
  · intro srcPort dstPort payload htotal
    obtain ⟨frame, eth, ip, hframe, heth, hip, hcarries⟩ :=
      decode_buildIpv4Frame hplain hopt tag htotal
    obtain ⟨checksum, hbuilt⟩ := buildUdpDatagram_plain srcIpBe dstIpBe srcPort dstPort payload
    obtain ⟨udp, hudp, hfields⟩ := decodeUdp_built srcPort dstPort payload checksum
    refine ⟨frame, eth, ip, udp, hframe, heth, hip, ?_, hcarries, hfields⟩
    rw [l4Of, hcarries.ipv4.payload, hbuilt, hudp]

/-- Options of seven bytes in the IPv4 header and of three in the TCP header, and a tag. -/
theorem frame_round_trip_options :
    ∃ frame eth ip tcp,
      tagged (some ⟨5, true, 100⟩) (buildIpv4Frame
        { ipOptions := [7, 7, 4, 0, 0, 0, 0], ipProtocol := 6 }
        (buildTcpSegment 0 0 { options := [3, 3, 7], payload := [1, 2] })) = some frame ∧
      decodeEthernet frame = some eth ∧ decodeIpv4Header eth.payload = some ip ∧
      decodeTcp (l4Of eth ip) = some tcp ∧ eth.dot1q = some ⟨5, true, 100⟩ ∧
      tcp.options.getD [] = [3, 3, 7, 1] ∧ tcp.payload.getD [] = [1, 2] := by
  obtain ⟨frame, eth, ip, tcp, hframe, heth, hip, htcp, hcarries, hfields⟩ :=
    (frame_round_trip { ipOptions := [7, 7, 4, 0, 0, 0, 0], ipProtocol := 6 } ⟨rfl, rfl, rfl⟩
      (by decide) (some ⟨5, true, 100⟩) 0 0).1 { options := [3, 3, 7], payload := [1, 2] } ⟨rfl, rfl⟩
      (by decide) (by decide +kernel)
  exact ⟨frame, eth, ip, tcp, hframe, heth, hip, htcp, hcarries.dot1q, hfields.options,
    hfields.payload⟩

/-- A datagram sent as a fragment at an offset of 14 bits. -/
def farFragment : Ipv4FrameSpec := { ipProtocol := 17, fragmentOffset := 0x2000 }

/-- The offset does not come back: the field has 13 bits. -/
theorem farFragment_masked :
    farFragment.Plain ∧ farFragment.ipOptions.length ≤ 40 ∧
    ∃ eth ip, decodeEthernet (buildIpv4Frame farFragment (buildUdpDatagram 0 0 1 2 [0])) = some eth ∧
      decodeIpv4Header eth.payload = some ip ∧ ip.fragmentOffset = 0 ∧
      ip.fragmentOffset ≠ farFragment.fragmentOffset := by
  have hplain : farFragment.Plain := ⟨rfl, rfl, rfl⟩
  have hopt : farFragment.ipOptions.length ≤ 40 := by decide
  obtain ⟨frame, eth, ip, hframe, heth, hip, hcarries⟩ :=
    decode_buildIpv4Frame hplain hopt none
      (show farFragment.ipHeaderLen + (buildUdpDatagram 0 0 1 2 [0]).length ≤ 65535 by decide +kernel)
  obtain rfl := Option.some.inj hframe
  have hoffset : ip.fragmentOffset = 0 := hcarries.ipv4.fragmentOffset
  refine ⟨hplain, hopt, eth, ip, heth, hip, hoffset, ?_⟩
  rw [hoffset]
  decide

end Tc8Harness.Stimulus
