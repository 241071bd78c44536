import Tc8Harness.Stimulus.FrameBuilder

/-!
# Builders and validators agree on checksums

What a builder of `src/stimulus/` writes into a checksum field, against the validators of
`src/wire/ip_checksum.cpp`. A builder lays the pseudo-header out as a region of bytes and sums the region;
the validators add the words of the addresses one by one. Both sums are the same number, so each builder
comes down to one field on an even offset of a buffer (`fold16_sent`).
-/

namespace Tc8Harness.Stimulus

open BigEndian Wire Someip

theorem sum16_bytes32_append (v : UInt32) (b : List UInt8) :
    sum16 (bytes32 v ++ b) = sum16 (bytes32 v) + sum16 b :=
  sum16_append (by simp [bytes32])

/-- The region a builder sums, as the words a validator adds. -/
theorem sum16_pseudoHeader (srcIpBe dstIpBe : UInt32) (protocol : UInt8) (length : UInt16)
    (data : List UInt8) :
    sum16 (pseudoHeader srcIpBe dstIpBe protocol length ++ data) =
      sum16 (bytes32 srcIpBe) + sum16 (bytes32 dstIpBe) + protocol.toNat + length.toNat + sum16 data := by
  have hprotocol : sum16 [0x00, protocol] = protocol.toNat := by simp [sum16]
  rw [pseudoHeader, List.append_assoc, List.append_assoc, List.append_assoc, sum16_bytes32_append,
    sum16_bytes32_append, sum16_append (by simp), sum16_append (by rw [length_putBe16]), sum16_putBe16,
    hprotocol]
  omega

/-! ## TCP -/

section Tcp

variable (srcIpBe dstIpBe : UInt32) (spec : TcpSegmentSpec)

/-- The sum over the pseudo-header and the segment, its checksum field apart. -/
def tcpSum : Nat :=
  sum16 (bytes32 srcIpBe) + sum16 (bytes32 dstIpBe) + 6 + spec.seg.length % 65536 + sum16 spec.seg

theorem sum16_seg (checksum : UInt16) : sum16 (spec.seg checksum) = sum16 spec.seg + checksum.toNat := by
  rw [TcpSegmentSpec.seg, TcpSegmentSpec.seg, sum16_word _ (by simp), sum16_zeroed _ (by simp)]

theorem tcpChecksum_seg (checksum : UInt16) :
    tcpChecksum srcIpBe dstIpBe (spec.seg checksum) =
      65535 - fold16 ((tcpSum srcIpBe dstIpBe spec + checksum.toNat) % 2 ^ 32) := by
  rw [tcpChecksum, sum16_seg, length_seg, tcpSum, length_seg, Nat.add_assoc _ _ checksum.toNat]

theorem tcpChecksumValid_seg (checksum : UInt16) :
    tcpChecksumValid srcIpBe dstIpBe (spec.seg checksum) = true ↔
      fold16 ((tcpSum srcIpBe dstIpBe spec + checksum.toNat) % 2 ^ 32) = 65535 := by
  have hle := fold16_le ((tcpSum srcIpBe dstIpBe spec + checksum.toNat) % 2 ^ 32)
  rw [tcpChecksumValid, tcpChecksum_seg, beq_iff_eq]
  omega

/-- The builder's region sums to the validator's words. -/
theorem inetChecksum_region :
    (inetChecksum (pseudoHeader srcIpBe dstIpBe 0x06
      (UInt16.ofNat (20 + spec.opts.length + spec.payload.length)) ++ spec.seg)).toNat =
      complement (tcpSum srcIpBe dstIpBe spec) := by
  rw [inetChecksum_toNat, sum16_pseudoHeader, tcpSum, length_seg, UInt16.toNat_ofNat']
  rfl

theorem tcpChecksumValid_buildTcpSegment (h : spec.forceZeroTcpChecksum = false) :
    tcpChecksumValid srcIpBe dstIpBe (buildTcpSegment srcIpBe dstIpBe spec) =
      !spec.corruptTcpChecksum := by
  have hbuilt : buildTcpSegment srcIpBe dstIpBe spec =
      spec.seg (sentChecksum spec.corruptTcpChecksum (inetChecksum (pseudoHeader srcIpBe dstIpBe 0x06
        (UInt16.ofNat (20 + spec.opts.length + spec.payload.length)) ++ spec.seg))) := by
    simp only [buildTcpSegment, h]
    exact writeBe16_seg ..
  rw [hbuilt, Bool.eq_iff_iff, tcpChecksumValid_seg, Bool.not_eq_true']
  exact fold16_sent (inetChecksum_region srcIpBe dstIpBe spec) _

theorem buildTcpSegment_forceZero (h : spec.forceZeroTcpChecksum = true) :
    buildTcpSegment srcIpBe dstIpBe spec = spec.seg := by
  simp only [buildTcpSegment, h]
  exact writeBe16_seg ..

end Tcp

/-! ## UDP -/

section Udp

variable (srcIpBe dstIpBe : UInt32) (srcPort dstPort : UInt16) (payload : List UInt8)

theorem length_udpPlain (checksum : UInt16) :
    (udpPlain srcPort dstPort payload checksum).length = 8 + payload.length := by
  simp [udpPlain]
  omega

/-- The rewritten checksum of the region is the validator's. -/
theorem udpChecksum_udpPlain :
    udpChecksum srcIpBe dstIpBe (udpPlain srcPort dstPort payload) =
      if inetChecksum (pseudoHeader srcIpBe dstIpBe 0x11 (UInt16.ofNat (8 + payload.length)) ++
        udpPlain srcPort dstPort payload) = 0x0000 then 0xFFFF
      else inetChecksum (pseudoHeader srcIpBe dstIpBe 0x11 (UInt16.ofNat (8 + payload.length)) ++
        udpPlain srcPort dstPort payload) := by
  rw [udpChecksum, inetChecksum, sum16_pseudoHeader, length_udpPlain, UInt16.toNat_ofNat']
  rfl

theorem buildUdpDatagram_eq :
    buildUdpDatagram srcIpBe dstIpBe srcPort dstPort payload =
      udpPlain srcPort dstPort payload
        (udpChecksum srcIpBe dstIpBe (udpPlain srcPort dstPort payload)) := by
  rw [udpChecksum_udpPlain]
  exact writeBe16_udpPlain ..

theorem udpChecksum_ne_zero (udp : List UInt8) : udpChecksum srcIpBe dstIpBe udp ≠ 0 := by
  unfold udpChecksum
  dsimp only
  split
  · decide
  · assumption

theorem readBe16_udpPlain (checksum : UInt16) :
    readBe16 (udpPlain srcPort dstPort payload checksum) 6 = checksum := by
  rw [readBe16, udpPlain, readBe_append_right (by simp)]
  simp [readBe_putBe16]

theorem zeroed_udpPlain (checksum : UInt16) :
    writeBe16 (udpPlain srcPort dstPort payload checksum) 6 0 = udpPlain srcPort dstPort payload :=
  writeBe16_append _ _ _ _ (by simp)

end Udp

/-! ## IPv4 -/

/-- A change that stays within the first `n` bytes of a buffer. -/
def FrontOnly (n : Nat) (f : List UInt8 → List UInt8) : Prop :=
  ∀ a b, n ≤ a.length → ∃ a', a'.length = a.length ∧ f (a ++ b) = a' ++ b

theorem FrontOnly.id {n : Nat} : FrontOnly n fun hdr => hdr := fun a _ _ => ⟨a, rfl, rfl⟩

theorem FrontOnly.set {n i : Nat} (h : i < n) (v : List UInt8 → UInt8) :
    FrontOnly n fun hdr => hdr.set i (v hdr) := by
  intro a b ha
  exact ⟨a.set i (v (a ++ b)), List.length_set, List.set_append_left i _ (by omega)⟩

theorem FrontOnly.comp {n : Nat} {f g : List UInt8 → List UInt8} (hf : FrontOnly n f)
    (hg : FrontOnly n g) : FrontOnly n fun hdr => g (f hdr) := by
  intro a b ha
  obtain ⟨a', hlength, hf⟩ := hf a b ha
  obtain ⟨a'', hlength', hg⟩ := hg a' b (by omega)
  exact ⟨a'', hlength'.trans hlength, (congrArg g hf).trans hg⟩

theorem FrontOnly.writeBe16 {n i : Nat} (h : i + 1 < n) (v : UInt16) :
    FrontOnly n fun hdr => Wire.writeBe16 hdr i v := by
  have hhigh : FrontOnly n fun hdr => hdr.set i (v >>> 8).toUInt8 := .set (by omega) _
  have hlow : FrontOnly n fun hdr => hdr.set (i + 1) (v &&& 0xFF).toUInt8 := .set h _
  exact hhigh.comp hlow

theorem frontOnly_applyOverrides (spec : Ipv4FrameSpec) : FrontOnly 4 spec.applyOverrides := by
  have hversion : FrontOnly 4 fun hdr => spec.versionOverride.elim hdr fun version =>
      hdr.set 0 (((version &&& 0x0F) <<< 4) ||| (hdr.getD 0 0 &&& 0x0F)) := by
    cases spec.versionOverride with
    | none => exact .id
    | some version => exact .set (by decide) _
  have hihl : FrontOnly 4 fun hdr => spec.ihlOverride.elim hdr fun ihl =>
      hdr.set 0 ((hdr.getD 0 0 &&& 0xF0) ||| (ihl &&& 0x0F)) := by
    cases spec.ihlOverride with
    | none => exact .id
    | some ihl => exact .set (by decide) _
  have htotal : FrontOnly 4 fun hdr => spec.totalLengthOverride.elim hdr fun totalLength =>
      writeBe16 hdr 2 totalLength := by
    cases spec.totalLengthOverride with
    | none => exact .id
    | some totalLength => exact .writeBe16 (by decide) totalLength
  have hall := (hversion.comp hihl).comp htotal
  unfold FrontOnly Ipv4FrameSpec.applyOverrides at *
  revert hall
  cases spec.versionOverride <;> cases spec.ihlOverride <;> cases spec.totalLengthOverride <;>
    exact fun hall => hall

/-- The header as it goes out, whatever is overridden. -/
def Ipv4FrameSpec.sentHdr (spec : Ipv4FrameSpec) (ipPayloadLen : Nat) : List UInt8 :=
  let ipHdr := spec.applyOverrides (spec.ipHdr ipPayloadLen)
  writeBe16 ipHdr 10 (sentChecksum spec.corruptIpChecksum (inetChecksum ipHdr))

theorem length_writeBe16 (data : List UInt8) (off : Nat) (v : UInt16) :
    (writeBe16 data off v).length = data.length := by
  rw [writeBe16, List.length_set, List.length_set]

theorem sentHdr_spec (spec : Ipv4FrameSpec) (n : Nat) :
    (spec.sentHdr n).length = spec.ipHeaderLen ∧
      inetChecksumValid (spec.sentHdr n) = !spec.corruptIpChecksum := by
  have hlength := length_ipHdr spec n 0
  rw [Ipv4FrameSpec.ipHdr] at hlength
  obtain ⟨a, ha, hover⟩ := frontOnly_applyOverrides spec
    ([0x40 ||| (UInt8.ofNat (spec.ipHeaderLen / 4) &&& 0x0F), 0x00] ++
      (putBe16 (UInt16.ofNat (spec.ipHeaderLen + n)) ++ (putBe16 spec.ipId ++
        (spec.flagsAndOffset ++ [spec.ttl, spec.ipProtocol]))))
    (putBe16 0x0000 ++ (bytes32 spec.srcIp ++ (bytes32 spec.dstIp ++ spec.paddedOptions))) (by simp)
  rw [Ipv4FrameSpec.sentHdr, Ipv4FrameSpec.ipHdr, hover]
  refine ⟨?_, ?_⟩
  · rw [length_writeBe16, List.length_append, ha, ← List.length_append, hlength]
  · exact inetChecksumValid_written _ (by rw [ha]; simp [Ipv4FrameSpec.flagsAndOffset]) rfl _

theorem take_buildIpv4Frame (spec : Ipv4FrameSpec) (ipPayload : List UInt8) :
    ((buildIpv4Frame spec ipPayload).drop 14).take spec.ipHeaderLen = spec.sentHdr ipPayload.length := by
  have hframe : buildIpv4Frame spec ipPayload =
      (spec.dstMac.toList ++ (spec.srcMac.toList ++ putBe16 kEtherTypeIpv4)) ++
        (spec.sentHdr ipPayload.length ++ ipPayload) := by
    simp only [List.append_assoc]
    rfl
  rw [hframe, List.drop_left' (by simp), List.take_left' (sentHdr_spec spec _).1]

/-! ## ICMP -/

theorem inetChecksumValid_buildIcmpEchoRequestBody (id seq : UInt16) (data : List UInt8)
    (typeOverride codeOverride : Option UInt8) (corruptChecksum : Bool) :
    inetChecksumValid
      (buildIcmpEchoRequestBody id seq data typeOverride codeOverride corruptChecksum) =
      !corruptChecksum := by
  exact inetChecksumValid_written (n := 2) _ rfl rfl corruptChecksum

theorem inetChecksumValid_buildIcmpTimestampRequestBody (id seq : UInt16)
    (originate receive transmit : UInt32) (typeOverride codeOverride : Option UInt8)
    (corruptChecksum : Bool) :
    inetChecksumValid (buildIcmpTimestampRequestBody id seq originate receive transmit typeOverride
      codeOverride corruptChecksum) = !corruptChecksum := by
  exact inetChecksumValid_written (n := 2) _ rfl rfl corruptChecksum

/-! ## Agreement -/

/-- **Builders and validators agree.** A TCP segment with neither checksum flag is valid, and one with the
flipped checksum is not, unless its checksum is forced to zero and zero happens to be right. A UDP datagram
carries what `udpChecksum` computes over it, which is never zero. An IPv4 header is valid under any
overrides, and so are the ICMP requests, exactly when the checksum is not flipped. -/
theorem builders_agree :
    (∀ srcIpBe dstIpBe (spec : TcpSegmentSpec),
      (spec.corruptTcpChecksum = false → spec.forceZeroTcpChecksum = false →
        tcpChecksumValid srcIpBe dstIpBe (buildTcpSegment srcIpBe dstIpBe spec) = true) ∧
      (spec.corruptTcpChecksum = true →
        (tcpChecksumValid srcIpBe dstIpBe (buildTcpSegment srcIpBe dstIpBe spec) = true ↔
          spec.forceZeroTcpChecksum = true ∧ tcpChecksum srcIpBe dstIpBe spec.seg = 0))) ∧
    (∀ srcIpBe dstIpBe srcPort dstPort payload,
      let udp := buildUdpDatagram srcIpBe dstIpBe srcPort dstPort payload
      let zeroed := writeBe16 udp 6 0
      readBe16 udp 6 = udpChecksum srcIpBe dstIpBe zeroed ∧
        udpChecksumValid srcIpBe dstIpBe zeroed (readBe16 udp 6) = true ∧ readBe16 udp 6 ≠ 0) ∧
    (∀ (spec : Ipv4FrameSpec) ipPayload,
      inetChecksumValid (((buildIpv4Frame spec ipPayload).drop 14).take spec.ipHeaderLen) =
        !spec.corruptIpChecksum) ∧
    (∀ id seq data typeOverride codeOverride corruptChecksum,
      inetChecksumValid
        (buildIcmpEchoRequestBody id seq data typeOverride codeOverride corruptChecksum) =
        !corruptChecksum) ∧
    ∀ id seq originate receive transmit typeOverride codeOverride corruptChecksum,
      inetChecksumValid (buildIcmpTimestampRequestBody id seq originate receive transmit typeOverride
        codeOverride corruptChecksum) = !corruptChecksum := by
  refine ⟨fun srcIpBe dstIpBe spec => ⟨fun hcorrupt hforce => ?_, fun hcorrupt => ?_⟩, ?_, ?_,
    inetChecksumValid_buildIcmpEchoRequestBody, inetChecksumValid_buildIcmpTimestampRequestBody⟩
  · rw [tcpChecksumValid_buildTcpSegment srcIpBe dstIpBe spec hforce, hcorrupt]
    rfl
  · cases hforce : spec.forceZeroTcpChecksum with
    | false =>
      rw [tcpChecksumValid_buildTcpSegment srcIpBe dstIpBe spec hforce, hcorrupt]
      simp
    | true =>
      rw [buildTcpSegment_forceZero srcIpBe dstIpBe spec hforce, tcpChecksumValid, beq_iff_eq]
      simp
  · intro srcIpBe dstIpBe srcPort dstPort payload
    dsimp only
    rw [buildUdpDatagram_eq, zeroed_udpPlain, readBe16_udpPlain]
    refine ⟨rfl, ?_, udpChecksum_ne_zero srcIpBe dstIpBe _⟩
    simp [udpChecksumValid]
  · intro spec ipPayload
    rw [take_buildIpv4Frame]
    exact (sentHdr_spec spec ipPayload.length).2

/-- Zero is the right checksum of this segment between unspecified addresses. -/
def zeroSumSegment : TcpSegmentSpec :=
  { urgentPointer := 45029, corruptTcpChecksum := true, forceZeroTcpChecksum := true }

theorem builders_agree_zeroSum :
    tcpChecksumValid 0 0 (buildTcpSegment 0 0
      { zeroSumSegment with corruptTcpChecksum := false, forceZeroTcpChecksum := false }) = true ∧
    tcpChecksumValid 0 0 (buildTcpSegment 0 0 { zeroSumSegment with forceZeroTcpChecksum := false }) =
      false := by
  refine ⟨(builders_agree.1 0 0 _).1 rfl rfl, Bool.eq_false_iff.2 fun hvalid => ?_⟩
  obtain ⟨hforce, -⟩ := ((builders_agree.1 0 0 _).2 rfl).1 hvalid
  nomatch hforce

theorem zeroSum_valid :
    zeroSumSegment.corruptTcpChecksum = true ∧
      tcpChecksumValid 0 0 (buildTcpSegment 0 0 zeroSumSegment) = true := by
  refine ⟨rfl, ?_⟩
  rw [buildTcpSegment_forceZero 0 0 zeroSumSegment rfl, tcpChecksumValid_seg, fold16_eq_iff]
  decide +kernel

end Tc8Harness.Stimulus
