import Tc8Harness.Dissect.Dhcpv4Delivery
import Tc8Harness.Stimulus.FrameRoundTrip

/-!
# How a DISCOVER is graded

A DHCPDISCOVER as RFC 2131 lets a client send it (`Discover`), the headers it is sent in (`Carrier`), and what
the predicates of the captured message say about it once the frame has gone through the pipeline. All of them
find it in order except `flagsReservedBitsZero`, which takes the last bit of the flags for the BROADCAST bit:
`graded_iff` says for which flags words the grading is right.
-/

namespace Tc8Harness.Dissect

open BigEndian Wire Someip

/-- A DHCPDISCOVER, without what is fixed in it. The options are well formed and have one Message Type. -/
structure Discover where
  htype : UInt8 := 1
  hlen : UInt8 := 6
  hops : UInt8 := 0
  xid : UInt32
  secs : UInt16
  flags : UInt16
  yiaddr : UInt32 := 0
  siaddr : UInt32 := 0
  giaddr : UInt32 := 0
  chaddr : Vector UInt8 16
  sname : Vector UInt8 64
  file : Vector UInt8 128
  options : List Tlv.Field
  /-- The zero bytes after END. -/
  padding : Nat
  wellFormed : ∀ f ∈ options, f.WellFormed 0x00 0xFF
  messageType : (Tlv.items options).filter (fun it => it.1 = 53) = [(53, [1])]

namespace Discover

variable (d : Discover)

/-- The fixed part up to `chaddr`. -/
def head : List UInt8 :=
  [1, d.htype, d.hlen, d.hops] ++ (putBe32 d.xid ++ (putBe16 d.secs ++ (putBe16 d.flags ++
    (bytes32 0 ++ (bytes32 d.yiaddr ++ (bytes32 d.siaddr ++ bytes32 d.giaddr))))))

def optionBytes : List UInt8 :=
  d.options.flatMap (Tlv.Field.bytes 0x00) ++ 0xFF :: List.replicate d.padding 0x00

def bytes : List UInt8 :=
  (d.head ++ (d.chaddr.toList ++ (d.sname.toList ++ d.file.toList))) ++
    ([0x63, 0x82, 0x53, 0x63] ++ d.optionBytes)

/-- The 15 bits of the flags that are not BROADCAST are zero. -/
def ReservedBitsZero : Prop := d.flags &&& 0x7FFF = 0

@[simp] theorem length_head : d.head.length = 28 := by simp [head]

@[simp] theorem length_fixed :
    (d.head ++ (d.chaddr.toList ++ (d.sname.toList ++ d.file.toList))).length = 236 := by simp

theorem length_bytes : d.bytes.length = 240 + d.optionBytes.length := by
  rw [bytes, List.length_append, length_fixed, List.length_append]
  exact (Nat.add_assoc ..).symm

theorem drop_bytes : d.bytes.drop kOptionsOff = d.optionBytes := by
  have hcut : d.bytes =
      ((d.head ++ (d.chaddr.toList ++ (d.sname.toList ++ d.file.toList))) ++
        [0x63, 0x82, 0x53, 0x63]) ++ d.optionBytes := by
    rw [bytes, List.append_assoc _ [_, _, _, _]]
  rw [hcut]
  exact List.drop_left' (by rw [List.length_append, length_fixed]; rfl)

theorem readBe32_cookie : readBe32 d.bytes kMagicCookieOff = kMagicCookie := by
  rw [bytes, readBe32, readBe_append_right (by rw [length_fixed]; decide), length_fixed]
  simp [kMagicCookieOff, readBe, kMagicCookie, ofBE]

theorem readBe16_flags : readBe16 d.bytes 10 = d.flags := by
  rw [bytes, head, readBe16]
  simp only [List.append_assoc]
  rw [readBe_append_right (by simp), readBe_append_right (by simp), readBe_append_right (by simp)]
  simp [readBe_putBe16]

theorem copy32_ciaddr : copy32 d.bytes 12 = 0 := by
  rw [bytes, head]
  simp only [List.append_assoc]
  rw [copy32_append_right (by simp), copy32_append_right (by simp), copy32_append_right (by simp),
    copy32_append_right (by simp)]
  simpa using copy32_bytes32 0 _

theorem dhcpItems_optionBytes :
    dhcpItems d.optionBytes = (Tlv.items d.options, .marker) := by
  rw [dhcpItems]
  refine Tlv.parse_fields (by decide) d.wellFormed ?_
  have hlen := Tlv.length_flatMap_bytes 0x00 d.options
  rw [optionBytes, List.length_append, List.length_cons]
  omega

end Discover

/-- Items that are not a Message Type do not set one. -/
theorem foldl_messageTypeStep (items : List (UInt8 × List UInt8)) (init : Option UInt8) :
    items.foldl messageTypeStep init = (items.filter fun it => it.1 = 53).foldl messageTypeStep init := by
  induction items generalizing init with
  | nil => rfl
  | cons it items ih =>
    by_cases hcode : it.1 = 53
    · rw [List.filter_cons_of_pos (by simpa using hcode), List.foldl_cons, List.foldl_cons, ih]
    · have hskip : messageTypeStep init it = init := if_neg fun h => hcode h.1
      rw [List.filter_cons_of_neg (by simpa using hcode), List.foldl_cons, hskip, ih]

/-! ## The frame -/

/-- The Ethernet, IPv4 and UDP headers of a client without an address: whole, unfragmented, from 0.0.0.0:68
to 255.255.255.255:67. -/
structure Carrier where
  ethDst : Vector UInt8 6
  ethSrc : Vector UInt8 6
  tos : UInt8
  identification : UInt16
  dontFragment : Bool
  ttl : UInt8
  headerChecksum : UInt16
  udpChecksum : UInt16
  ipOptions : List UInt8
  aligned : ipOptions.length % 4 = 0
  optionsFit : ipOptions.length ≤ 40

namespace Carrier

variable (c : Carrier) (payload : List UInt8)

def ipHeader (length : Nat) : List UInt8 :=
  [0x40 ||| UInt8.ofNat (5 + c.ipOptions.length / 4), c.tos] ++
    (putBe16 (UInt16.ofNat (20 + c.ipOptions.length + length)) ++ (putBe16 c.identification ++
      ([if c.dontFragment then 0x40 else 0, 0, c.ttl, 17] ++ (putBe16 c.headerChecksum ++
        (bytes32 0 ++ (bytes32 0xFFFFFFFF ++ c.ipOptions))))))

def datagram : List UInt8 :=
  putBe16 68 ++ (putBe16 67 ++ (putBe16 (UInt16.ofNat (8 + payload.length)) ++
    (putBe16 c.udpChecksum ++ payload)))

def frame : List UInt8 :=
  c.ethDst.toList ++ (c.ethSrc.toList ++ (putBe16 kEtherTypeIpv4 ++
    (c.ipHeader (c.datagram payload).length ++ c.datagram payload)))

theorem length_ipHeader (n : Nat) : (c.ipHeader n).length = 20 + c.ipOptions.length := by
  simp [ipHeader]
  omega

theorem length_datagram : (c.datagram payload).length = 8 + payload.length := by
  simp [datagram]
  omega

/-- The length of the header, by its first byte. -/
theorem toNat_ihl :
    ((0x40 ||| UInt8.ofNat (5 + c.ipOptions.length / 4)) &&& 0x0F : UInt8).toNat * 4 =
      20 + c.ipOptions.length := by
  have haligned := c.aligned
  have hfit := c.optionsFit
  obtain ⟨words, hwords⟩ : ∃ words, c.ipOptions.length = 4 * words := ⟨c.ipOptions.length / 4, by omega⟩
  have hle : words ≤ 10 := by omega
  rw [hwords, Nat.mul_div_cancel_left _ (by decide)]
  interval_cases words <;> rfl

theorem decodeEthernet_frame :
    decodeEthernet (c.frame payload) = some ⟨c.ethDst.toList, c.ethSrc.toList, kEtherTypeIpv4, none,
      c.ipHeader (c.datagram payload).length ++ c.datagram payload⟩ :=
  Stimulus.decodeEthernet_frame c.ethDst c.ethSrc kEtherTypeIpv4 _ (by decide)

theorem decodeIpv4Header_frame (htotal : 20 + c.ipOptions.length + payload.length ≤ 65535) :
    ∃ ip, decodeIpv4Header (c.ipHeader payload.length ++ payload) = some ip ∧
      ip.protocol = kIpProtoUdp ∧ ip.fragmented = false ∧ ip.srcBe = 0 ∧ ip.dstBe = 0xFFFFFFFF ∧
      ((c.ipHeader payload.length ++ payload).drop ip.headerLen).take
        (ipv4PayloadLen ip (c.ipHeader payload.length ++ payload).length) = payload := by
  have hlen : (c.ipHeader payload.length ++ payload).length =
      20 + c.ipOptions.length + payload.length := by rw [List.length_append, length_ipHeader]
  generalize hp : c.ipHeader payload.length ++ payload = p at hlen ⊢
  have hihl : (p.getD 0 0 &&& 0x0F).toNat * 4 = 20 + c.ipOptions.length := by
    rw [← c.toNat_ihl, ← hp]
    rfl
  have htotalLength : readBe16 p 2 = UInt16.ofNat (20 + c.ipOptions.length + payload.length) := by
    simp (disch := simp) only [← hp, readBe16, ipHeader, List.append_assoc, readBe_append_right,
      List.length_cons, List.length_nil, Nat.reduceAdd, Nat.reduceSub, readBe_putBe16,
      UInt16.ofNat_toNat]
  have htoNat : (UInt16.ofNat (20 + c.ipOptions.length + payload.length)).toNat =
      20 + c.ipOptions.length + payload.length := by
    rw [UInt16.toNat_ofNat']
    exact Nat.mod_eq_of_lt (by omega)
  have hflags : p.getD 6 0 >>> 5 = if c.dontFragment then 2 else 0 := by
    have hbyte : p.getD 6 0 = if c.dontFragment then 0x40 else 0 := by
      rw [← hp]
      rfl
    rw [hbyte]
    cases c.dontFragment <;> rfl
  have hoffset : readBe16 p 6 &&& 0x1FFF = 0 := by
    have hpair : readBe16 p 6 = UInt16.ofNat (ofBE [if c.dontFragment then 0x40 else 0, 0]) := by
      rw [← hp]
      rfl
    rw [hpair]
    cases c.dontFragment <;> rfl
  have hsrc : copy32 p 12 = 0 := by
    simp (disch := simp) only [← hp, ipHeader, List.append_assoc, copy32_append_right,
      List.length_cons, List.length_nil, length_putBe16, Nat.reduceAdd, Nat.reduceSub, copy32_bytes32]
  have hdst : copy32 p 16 = 0xFFFFFFFF := by
    simp (disch := simp) only [← hp, ipHeader, List.append_assoc, copy32_append_right,
      List.length_cons, List.length_nil, length_putBe16, length_bytes32, Nat.reduceAdd, Nat.reduceSub,
      copy32_bytes32]
  have hpayload : (p.drop (20 + c.ipOptions.length)).take payload.length = payload := by
    rw [← hp, List.drop_left' (length_ipHeader c payload.length), List.take_length]
  rw [decodeIpv4Header, if_neg (by rw [kIpv4FixedHeaderLen]; omega)]
  simp only [hihl]
  rw [if_neg (by rw [kIpv4FixedHeaderLen]; omega), htotalLength, hflags, hoffset, hsrc, hdst]
  refine ⟨_, rfl, ?_, ?_, rfl, rfl, Stimulus.payload_of_lengths hihl htoNat hlen hpayload⟩
  · rw [← hp]
    rfl
  · dsimp only [Ipv4Header.fragmented]
    cases c.dontFragment <;> decide

theorem decodeUdp_datagram (hne : payload ≠ []) :
    decodeUdp (c.datagram payload) = some ⟨68, 67, UInt16.ofNat (8 + payload.length), c.udpChecksum,
      some payload⟩ := by
  have hlong : kUdpHeaderLen < (c.datagram payload).length := by
    have hpos := List.length_pos_of_ne_nil hne
    rw [length_datagram, kUdpHeaderLen]
    omega
  have hplain : c.datagram payload = Stimulus.udpPlain 68 67 payload c.udpChecksum := by
    simp [datagram, Stimulus.udpPlain]
  have hrest : rest (c.datagram payload) kUdpHeaderLen = some payload := by
    rw [rest, if_pos hlong, hplain, Stimulus.drop_udpPlain]
  rw [← hrest, hplain, Stimulus.decodeUdp_udpPlain]

end Carrier

/-! ## The grading -/

/-- The predicates find a DISCOVER in order, and its flags when they are. -/
structure Graded (d : Discover) (f : Dhcpv4Frame) : Prop where
  isDhcpDiscover : f.isDhcpDiscover = true
  hasMessageTypeOption : f.hasMessageTypeOption = true
  endsWithEndOption : f.endsWithEndOption = true
  sourceIpIsZero : f.sourceIpIsZero = true
  dstIpIsBroadcast : f.dstIpIsBroadcast = true
  ciaddrIsZero : f.ciaddrIsZero = true
  flagsReservedBitsZero : f.flagsReservedBitsZero = true ↔ d.ReservedBitsZero

theorem and_0x7FFF_eq_zero_iff (flags : UInt16) :
    flags &&& 0x7FFF = 0 ↔ flags = 0 ∨ flags = 0x8000 := by
  have hmod : (flags &&& 0x7FFF).toNat = flags.toNat % 2 ^ 15 := by
    rw [UInt16.toNat_and]
    exact Nat.and_two_pow_sub_one_eq_mod _ 15
  have hlt := flags.toNat_lt
  rw [← UInt16.toNat_inj, ← UInt16.toNat_inj, ← UInt16.toNat_inj, hmod]
  change _ = 0 ↔ _ = 0 ∨ _ = 0x8000
  omega

theorem and_0xFFFE_eq_zero_iff (flags : UInt16) :
    flags &&& 0xFFFE = 0 ↔ flags = 0 ∨ flags = 1 := by
  have hshift : (flags &&& 0xFFFE).toNat / 2 = flags.toNat / 2 := by
    have hlt := flags.toNat_lt
    rw [UInt16.toNat_and]
    change (flags.toNat &&& 0xFFFE) / 2 ^ 1 = flags.toNat / 2 ^ 1
    rw [← Nat.shiftRight_eq_div_pow, Nat.shiftRight_and_distrib]
    change flags.toNat >>> 1 &&& (2 ^ 15 - 1) = _
    rw [Nat.and_two_pow_sub_one_eq_mod, Nat.shiftRight_eq_div_pow]
    omega
  constructor
  · intro h
    rw [h] at hshift
    change 0 / 2 = _ at hshift
    rw [← UInt16.toNat_inj, ← UInt16.toNat_inj]
    change _ = 0 ∨ _ = 1
    omega
  · rintro (rfl | rfl) <;> rfl

/-- The two masks agree on all flags words but the two with one bit at an end. -/
theorem masks_agree_iff (flags : UInt16) :
    ((flags &&& 0xFFFE == 0) = true ↔ flags &&& 0x7FFF = 0) ↔ flags ≠ 0x8000 ∧ flags ≠ 1 := by
  rw [beq_iff_eq, and_0xFFFE_eq_zero_iff, and_0x7FFF_eq_zero_iff]
  constructor
  · intro h
    refine ⟨?_, ?_⟩ <;> rintro rfl <;> revert h <;> decide
  · rintro ⟨hbroadcast, hlast⟩
    simp [hbroadcast, hlast]

section

variable (d : Discover) (uf : UdpFrame)

theorem options_discover : (dhcpv4FrameFrom uf d.bytes).options = d.optionBytes := by
  simp [dhcpv4FrameFrom, d.readBe32_cookie, d.drop_bytes]

theorem messageType_discover : (dhcpv4FrameFrom uf d.bytes).messageType = some 1 ∧
    (dhcpv4FrameFrom uf d.bytes).lastOptionIsEnd = true := by
  have hwalk : walkDhcpOptions d.optionBytes d.optionBytes.length 0 none = (some 1, true) := by
    have hitems := d.dhcpItems_optionBytes
    rw [dhcpItems] at hitems
    rw [walkDhcpOptions_eq, List.drop_zero, hitems, foldl_messageTypeStep, d.messageType]
    rfl
  rw [← Prod.mk.injEq, ← walkDhcpOptions_dhcpv4FrameFrom, options_discover, hwalk]

theorem graded_discover_iff (hsrc : uf.srcIp = 0) (hdst : uf.dstIp = 0xFFFFFFFF) :
    Graded d (dhcpv4FrameFrom uf d.bytes) ↔ d.flags ≠ 0x8000 ∧ d.flags ≠ 1 := by
  obtain ⟨htype, hend⟩ := messageType_discover d uf
  have hflags : (dhcpv4FrameFrom uf d.bytes).flags = d.flags := d.readBe16_flags
  have hciaddr : (dhcpv4FrameFrom uf d.bytes).ciaddr = 0 := d.copy32_ciaddr
  have hcookie : (dhcpv4FrameFrom uf d.bytes).magicCookieValid = true := by
    simp [dhcpv4FrameFrom, d.readBe32_cookie]
  have hop : (dhcpv4FrameFrom uf d.bytes).op = 1 := rfl
  have hsrcIp : (dhcpv4FrameFrom uf d.bytes).srcIp = 0 := hsrc
  have hdstIp : (dhcpv4FrameFrom uf d.bytes).dstIp = 0xFFFFFFFF := hdst
  rw [← masks_agree_iff d.flags]
  constructor
  · intro h
    have hgrade := h.flagsReservedBitsZero
    rwa [Dhcpv4Frame.flagsReservedBitsZero, hflags] at hgrade
  · intro h
    exact
      { isDhcpDiscover := by
          simp [Dhcpv4Frame.isDhcpDiscover, Dhcpv4Frame.hasMessageTypeOption, htype, hcookie, hop]
        hasMessageTypeOption := by simp [Dhcpv4Frame.hasMessageTypeOption, htype]
        endsWithEndOption := hend
        sourceIpIsZero := by simp [Dhcpv4Frame.sourceIpIsZero, hsrcIp]
        dstIpIsBroadcast := by simp [Dhcpv4Frame.dstIpIsBroadcast, hdstIp]
        ciaddrIsZero := by simp [Dhcpv4Frame.ciaddrIsZero, hciaddr]
        flagsReservedBitsZero := by
          rw [Dhcpv4Frame.flagsReservedBitsZero, hflags]
          exact h }

end

/-- **The DISCOVERs that are graded right.** Any client's DISCOVER comes out of the pipeline as one DHCP
event, and the predicates say of it what RFC 2131 says unless its flags are 0x8000, which the RFC allows
and `flagsReservedBitsZero` refuses, or 0x0001, which it is the other way round with. -/
theorem graded_iff {σ φ : Type} (env : Env σ φ) (s : Pipeline σ φ) (d : Discover) (c : Carrier)
    (htotal : 20 + c.ipOptions.length + (8 + d.bytes.length) ≤ 65535)
    (hserver : env.controlPlanePort ≠ 67) (hclient : env.controlPlanePort ≠ 68) (f : PcapFrame)
    (hbytes : f.bytes = c.frame d.bytes) (hwhole : f.len ≤ f.bytes.length)
    (hlink : f.datalink = kDltEn10mb)
    (hreturned : ∀ call ∈ (processFrame env s f).calls, call.threw = none) :
    (∃ df, dhcpv4Events (processFrame env s f).calls = [df] ∧ Graded d df) ↔
      d.flags ≠ 0x8000 ∧ d.flags ≠ 1 := by
  obtain ⟨ip, hip, hproto, hfrag, hsrc, hdst, hl4⟩ :=
    c.decodeIpv4Header_frame (c.datagram d.bytes) (by rwa [c.length_datagram])
  have hoptions : kOptionsOff ≤ d.bytes.length := by
    rw [d.length_bytes]
    exact Nat.le_add_right _ _
  have hne : d.bytes ≠ [] := List.ne_nil_of_length_pos (Nat.lt_of_lt_of_le (by decide) hoptions)
  have hevents := processFrame_dhcpv4 hlink hwhole (by rw [hbytes]; exact c.decodeEthernet_frame _) rfl
    hip hproto hfrag (by rw [l4Of, hl4]; exact c.decodeUdp_datagram _ hne) rfl rfl hoptions
    hclient.symm hserver.symm hreturned
  rw [hevents]
  constructor
  · rintro ⟨df, hdf, hgraded⟩
    rw [← List.head_eq_of_cons_eq hdf] at hgraded
    exact (graded_discover_iff d _ hsrc hdst).1 hgraded
  · intro h
    exact ⟨_, rfl, (graded_discover_iff d _ hsrc hdst).2 h⟩

/-- A case that only listens. -/
def quietEnv : Env Unit Unit where
  listener s _ := (s, none)
  markerListener := none
  processPacket state _ := .done state

/-- A DISCOVER with nothing but its Message Type. -/
def bareDiscover (flags : UInt16) : Discover where
  xid := 0x01020304
  secs := 0
  flags := flags
  chaddr := Vector.replicate 16 0
  sname := Vector.replicate 64 0
  file := Vector.replicate 128 0
  options := [.item 53 [1]]
  padding := 0
  wellFormed := by simp [Tlv.Field.WellFormed]
  messageType := by decide

def bareCarrier : Carrier where
  ethDst := #[0xFF, 0xFF, 0xFF, 0xFF, 0xFF, 0xFF].toVector
  ethSrc := #[2, 0, 0, 0, 0, 1].toVector
  tos := 0
  identification := 0
  dontFragment := false
  ttl := 64
  headerChecksum := 0x39D2
  udpChecksum := 0
  ipOptions := []
  aligned := rfl
  optionsFit := Nat.zero_le 40

def bareCapture (flags : UInt16) : PcapFrame :=
  ⟨bareCarrier.frame (bareDiscover flags).bytes, 286, 0, 0, kDltEn10mb⟩

theorem graded_iff_clear :
    ∃ df, dhcpv4Events (processFrame quietEnv ⟨(), (), {}, 0, ∅, [], 0, 0, []⟩ (bareCapture 0)).calls =
      [df] ∧ Graded (bareDiscover 0) df := by
  have hcalls : (processFrame quietEnv ⟨(), (), {}, 0, ∅, [], 0, 0, []⟩ (bareCapture 0)).calls.all
      (fun c => c.threw.isNone) = true := by
    decide +kernel
  refine (graded_iff quietEnv _ (bareDiscover 0) bareCarrier (by decide +kernel) (by decide) (by decide)
    (bareCapture 0) rfl (by decide +kernel) rfl ?_).2 ⟨by decide, by decide⟩
  exact fun c hc => Option.isNone_iff_eq_none.1 (List.all_eq_true.1 hcalls c hc)

/-- A DISCOVER that asks for a broadcast answer, as a client without an address may. -/
theorem not_graded_broadcast :
    (bareDiscover 0x8000).ReservedBitsZero ∧
    ∃ df, dhcpv4Events (processFrame quietEnv ⟨(), (), {}, 0, ∅, [], 0, 0, []⟩
        (bareCapture 0x8000)).calls = [df] ∧ df.flags = 0x8000 ∧ df.isDhcpDiscover = true ∧
      df.flagsReservedBitsZero = false := by
  have hevents : (dhcpv4Events (processFrame quietEnv ⟨(), (), {}, 0, ∅, [], 0, 0, []⟩
      (bareCapture 0x8000)).calls).map (fun df => (df.flags, df.isDhcpDiscover, df.flagsReservedBitsZero)) =
      [(0x8000, true, false)] := by
    decide +kernel
  obtain ⟨df, hdf, hsays⟩ := List.map_eq_singleton_iff.1 hevents
  simp only [Prod.mk.injEq] at hsays
  exact ⟨rfl, df, hdf, hsays⟩

end Tc8Harness.Dissect
