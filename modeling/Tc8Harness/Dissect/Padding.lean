import Tc8Harness.Dissect.Framing
import Tc8Harness.Dissect.FrameEnd
import Tc8Harness.Testability.Wire
import Tc8Harness.UpperTester.Protocol

/-!
# Link-layer padding

A frame and the same frame with bytes appended, through the packet pipeline in the same state. Each
decoder takes its lengths from the headers, so what stands behind an ARP packet or behind an IPv4
packet's Total Length is not read (`decodeArp_append`, `decodeIpv4Header_append`, `l4Of_append`).

The one reader of the whole captured frame is the marker a control reply acknowledges: the matchers of
the two control backends read the frame through `viewUdpFrame` of `stimulus/udp_frame_view.h`, which
goes by the UDP Length and the captured size. `padding_invisible` is the two-run statement.
-/

namespace Tc8Harness.Dissect

open Wire

/-! ## The matchers of control replies -/

structure UdpFrameView where
  srcIpBe : UInt32
  dstIpBe : UInt32
  srcPort : UInt16
  dstPort : UInt16
  payload : List UInt8
  deriving DecidableEq, Repr

def viewUdpFrame (frame : List UInt8) : Option UdpFrameView :=
  let kEth := 14
  if frame.length < kEth + 20 ∨ frame.getD 12 0 ≠ 0x08 ∨ frame.getD 13 0 ≠ 0x00 then none
  else
    let ip := frame.drop kEth
    let ihl := (ip.getD 0 0 &&& 0x0F).toNat * 4
    if ip.getD 0 0 >>> 4 ≠ 4 ∨ ihl < 20 ∨ ip.getD 9 0 ≠ 17 ∨ frame.length < kEth + ihl + 8 ∨
        (ip.getD 6 0 &&& 0x3F) ||| ip.getD 7 0 ≠ 0 then none
    else
      let udp := ip.drop ihl
      let udpLen := (readBe16 udp 4).toNat
      if udpLen < 8 ∨ kEth + ihl + udpLen > frame.length then none
      else
        some
          { srcIpBe := copy32 ip 12
            dstIpBe := copy32 ip 16
            srcPort := readBe16 udp 0
            dstPort := readBe16 udp 2
            payload := (udp.drop 8).take (udpLen - 8) }

/-- The opcode backend's control port. -/
def kUtPort : UInt16 := 30600

def utReplyPayload (frame : List UInt8) (dutIpBe testerIpBe : UInt32) (testerPort : UInt16)
    (dutPort : UInt16 := kUtPort) : Option (List UInt8) :=
  match viewUdpFrame frame with
  | none => none
  | some v =>
    if v.srcIpBe ≠ dutIpBe ∨ v.dstIpBe ≠ testerIpBe ∨ v.srcPort ≠ dutPort ∨ v.dstPort ≠ testerPort then
      none
    else some v.payload

/-- The matcher of `sendUpperTesterRequestAwaited`: the reply to this request, with status OK. -/
def utAckMatcher (dutIpBe testerIpBe : UInt32) (testerPort : UInt16) (op reqId : UInt8)
    (frame : List UInt8) : Bool :=
  match utReplyPayload frame dutIpBe testerIpBe testerPort with
  | none => false
  | some p =>
    decide (p.length ≥ 3) && p.getD 0 0 == op && p.getD 1 0 == reqId &&
      p.getD 2 0 == UpperTester.kStatusOk

/-- The matcher of `callAsStep`: a Response of the primitive, with result E_OK. -/
def testabilityAckMatcher (dutIpBe : UInt32) (dutPort serviceId methodId : UInt16)
    (frame : List UInt8) : Bool :=
  match viewUdpFrame frame with
  | none => false
  | some v =>
    if v.srcIpBe ≠ dutIpBe ∨ v.srcPort ≠ dutPort then false
    else
      match Testability.parseHeader v.payload with
      | none => false
      | some h =>
        h.serviceId == serviceId && h.tid == Testability.kTidResponse && h.methodId == methodId &&
          h.rid == Testability.kRidEOk

/-- The marker is one that a control backend registers. -/
def AckMarker (m : PendingMarker) : Prop :=
  (∃ dutIpBe testerIpBe testerPort op reqId,
      m.matches_ = utAckMatcher dutIpBe testerIpBe testerPort op reqId) ∨
    ∃ dutIpBe dutPort serviceId methodId,
      m.matches_ = testabilityAckMatcher dutIpBe dutPort serviceId methodId

/-- Both matchers see of a frame what `viewUdpFrame` shows. -/
theorem AckMarker.matches_congr {m : PendingMarker} (h : AckMarker m) {frame frame' : List UInt8}
    (hview : viewUdpFrame frame' = viewUdpFrame frame) : m.matches_ frame' = m.matches_ frame := by
  rcases h with ⟨_, _, _, _, _, hm⟩ | ⟨_, _, _, _, hm⟩
  · rw [hm, utAckMatcher, utAckMatcher, utReplyPayload, utReplyPayload, hview]
  · rw [hm, testabilityAckMatcher, testabilityAckMatcher, hview]

/-! ## The decoders -/

section Decoders

variable {p : List UInt8}

theorem getD_append_left {i : Nat} (h : i < p.length) (pad : List UInt8) :
    (p ++ pad).getD i 0 = p.getD i 0 := List.getD_append p pad 0 i h

theorem copy32_append {off : Nat} (h : off + 4 ≤ p.length) (pad : List UInt8) :
    copy32 (p ++ pad) off = copy32 p off := by
  unfold copy32
  rw [List.drop_append_of_le_length (by omega), List.take_append_of_le_length]
  rw [List.length_drop]
  omega

theorem slice_append {off n : Nat} (h : off + n ≤ p.length) (pad : List UInt8) :
    ((p ++ pad).drop off).take n = (p.drop off).take n := by
  rw [List.drop_append_of_le_length (by omega), List.take_append_of_le_length]
  rw [List.length_drop]
  omega

/-- A frame with a whole header carries the padding behind its payload. -/
theorem decodeEthernet_append {eth : EthernetFrame} (h : decodeEthernet p = some eth)
    (pad : List UInt8) :
    kEthernetHeaderLen ≤ p.length ∧
      decodeEthernet (p ++ pad) = some { eth with payload := eth.payload ++ pad } := by
  unfold decodeEthernet at h ⊢
  split at h
  · cases h
  next hshort =>
    rw [kEthernetHeaderLen] at hshort
    have hdst : (p ++ pad).take 6 = p.take 6 := List.take_append_of_le_length (by omega)
    have hsrc : ((p ++ pad).drop 6).take 6 = (p.drop 6).take 6 := slice_append (by omega) pad
    have htype : readBe16 (p ++ pad) 12 = readBe16 p 12 := readBe16_append (by omega) pad
    refine ⟨Nat.le_of_not_lt hshort, ?_⟩
    rw [if_neg (by rw [List.length_append, kEthernetHeaderLen]; omega)]
    dsimp only at h ⊢
    rw [hdst, hsrc, htype]
    split at h
    · next htag =>
      split at h
      · cases h
      next htagged =>
        rw [kEthernetHeaderLen, kDot1QTagLen] at htagged
        cases h
        rw [if_pos htag, if_neg (by
          rw [List.length_append, kEthernetHeaderLen, kDot1QTagLen]
          omega), readBe16_append (by omega), readBe16_append (by omega),
          List.drop_append_of_le_length (by rw [kEthernetHeaderLen, kDot1QTagLen]; omega)]
    · next htag =>
      cases h
      rw [if_neg htag, List.drop_append_of_le_length (by rw [kEthernetHeaderLen]; omega)]

/-- What stands behind the 28 bytes of an ARP packet is not read. -/
theorem decodeArp_append (h : kArpEthernetIpv4Len ≤ p.length) (pad : List UInt8) :
    decodeArp (p ++ pad) = decodeArp p := by
  rw [kArpEthernetIpv4Len] at h
  have hlong : ¬ p.length < kArpEthernetIpv4Len := by
    rw [kArpEthernetIpv4Len]
    omega
  have hlong' : ¬ (p ++ pad).length < kArpEthernetIpv4Len := by
    rw [List.length_append, kArpEthernetIpv4Len]
    omega
  unfold decodeArp
  rw [if_neg hlong, if_neg hlong', readBe16_append (by omega), readBe16_append (by omega),
    readBe16_append (by omega), getD_append_left (by omega), getD_append_left (by omega),
    slice_append (by omega), slice_append (by omega), copy32_append (by omega),
    copy32_append (by omega)]

theorem walkIpv4Options_append {end_ : Nat} (h : end_ ≤ p.length) (pad : List UInt8)
    (steps at_ : Nat) :
    walkIpv4Options (p ++ pad) end_ steps at_ = walkIpv4Options p end_ steps at_ := by
  induction steps generalizing at_ with
  | zero => rfl
  | succ steps ih =>
    rw [walkIpv4Options, walkIpv4Options, List.take_append_of_le_length h]
    split
    · rfl
    next hin =>
      rw [getD_append_left (by omega)]
      split
      · rfl
      · split
        · exact ih _
        · split
          · rfl
          next hnext =>
            rw [getD_append_left (by omega)]
            dsimp only
            rw [ih]

/-- The packet's Total Length covers its header and is all there. -/
structure WholePacket (p : List UInt8) : Prop where
  field : 4 ≤ p.length
  header : (p.getD 0 0 &&& 0x0F).toNat * 4 ≤ (readBe16 p 2).toNat
  present : (readBe16 p 2).toNat ≤ p.length

/-- The header is located, or not, by what the packet holds. -/
theorem decodeIpv4Header_append (h : WholePacket p) (pad : List UInt8) :
    decodeIpv4Header (p ++ pad) = decodeIpv4Header p := by
  have hfield := h.field
  have hheader := h.header.trans h.present
  unfold decodeIpv4Header
  dsimp only
  rw [getD_append_left (i := 0) (by omega)]
  by_cases hmin : (p.getD 0 0 &&& 0x0F).toNat * 4 < kIpv4FixedHeaderLen
  · have hnone : ∀ n, (p.getD 0 0 &&& 0x0F).toNat * 4 < kIpv4FixedHeaderLen ∨
        (p.getD 0 0 &&& 0x0F).toNat * 4 > n := fun n => .inl hmin
    rw [if_pos (hnone _), if_pos (hnone _), ite_self, ite_self]
  · rw [kIpv4FixedHeaderLen] at hmin
    have hfixed : ¬ p.length < kIpv4FixedHeaderLen := by
      rw [kIpv4FixedHeaderLen]
      omega
    have hfixed' : ¬ (p ++ pad).length < kIpv4FixedHeaderLen := by
      rw [List.length_append, kIpv4FixedHeaderLen]
      omega
    have hfits : ¬ ((p.getD 0 0 &&& 0x0F).toNat * 4 < kIpv4FixedHeaderLen ∨
        (p.getD 0 0 &&& 0x0F).toNat * 4 > p.length) := by
      rw [kIpv4FixedHeaderLen]
      omega
    have hfits' : ¬ ((p.getD 0 0 &&& 0x0F).toNat * 4 < kIpv4FixedHeaderLen ∨
        (p.getD 0 0 &&& 0x0F).toNat * 4 > (p ++ pad).length) := by
      rw [List.length_append, kIpv4FixedHeaderLen]
      omega
    rw [if_neg hfixed, if_neg hfixed', if_neg hfits, if_neg hfits',
      walkIpv4Options_append hheader]
    rw [kIpv4FixedHeaderLen] at hfixed
    rw [getD_append_left (by omega), getD_append_left (by omega), getD_append_left (by omega),
      getD_append_left (by omega), readBe16_append (by omega), readBe16_append (by omega),
      readBe16_append (by omega), readBe16_append (by omega), copy32_append (by omega),
      copy32_append (by omega)]

end Decoders

/-! ## The layers -/

section Layers

variable {σ φ : Type} {env : Env σ φ} {bytes : List UInt8} {eth : EthernetFrame} {ip : Ipv4Header}

/-- What the decoded header of a whole packet says of its lengths. -/
structure PacketLengths (p : List UInt8) (ip : Ipv4Header) : Prop where
  headerLen : ip.headerLen = (p.getD 0 0 &&& 0x0F).toNat * 4
  fixed : 20 ≤ ip.headerLen
  total : ip.headerLen ≤ ip.totalLength.toNat
  present : ip.totalLength.toNat ≤ p.length
  protocol : ip.protocol = p.getD 9 0

theorem WholePacket.lengths {p : List UInt8} (h : WholePacket p)
    (hip : decodeIpv4Header p = some ip) : PacketLengths p ip := by
  unfold decodeIpv4Header at hip
  split at hip
  · cases hip
  · dsimp only at hip
    split at hip
    · cases hip
    next hlen =>
      rw [not_or] at hlen
      cases hip
      exact ⟨rfl, Nat.le_of_not_lt hlen.1, h.header, h.present, rfl⟩

theorem PacketLengths.l4Of_eq (h : PacketLengths eth.payload ip) :
    l4Of eth ip = (eth.payload.drop ip.headerLen).take (ip.totalLength.toNat - ip.headerLen) := by
  have htotal := h.total
  have hpresent := h.present
  unfold l4Of ipv4PayloadLen
  dsimp only
  rw [if_neg (by omega), min_eq_left (by omega)]

/-- The payload of a whole packet is what its Total Length bounds. -/
theorem l4Of_append (h : WholePacket eth.payload) (hip : decodeIpv4Header eth.payload = some ip)
    (pad : List UInt8) : l4Of { eth with payload := eth.payload ++ pad } ip = l4Of eth ip := by
  have hlengths := h.lengths hip
  have htotal := hlengths.total
  have hpresent := hlengths.present
  rw [hlengths.l4Of_eq]
  unfold l4Of ipv4PayloadLen
  dsimp only
  rw [if_neg (by omega), List.length_append, min_eq_left (by omega)]
  exact slice_append (by omega) pad

variable (env)

/-- The Ethernet source stands in the frame's own bytes. -/
theorem noteUndissectable_append (h : kEthernetHeaderLen ≤ bytes.length) (pad : List UInt8)
    (frameIdx : Nat) (reason : String) (stats : DissectionStats) :
    noteUndissectable env (bytes ++ pad) frameIdx reason stats =
      noteUndissectable env bytes frameIdx reason stats := by
  rw [kEthernetHeaderLen] at h
  have hlen : (bytes ++ pad).length ≥ 6 + 6 := by
    rw [List.length_append]
    omega
  have hlen' : bytes.length ≥ 6 + 6 := by omega
  unfold noteUndissectable
  rw [slice_append (by omega)]
  simp only [hlen, hlen']

theorem note_append (h : kEthernetHeaderLen ≤ bytes.length) (pad : List UInt8) (frameIdx : Nat)
    (reason : String) :
    (note env (bytes ++ pad) frameIdx reason : M σ φ Unit) = note env bytes frameIdx reason := by
  unfold note
  simp only [noteUndissectable_append env h pad]

theorem settle_append (h : kEthernetHeaderLen ≤ bytes.length) (pad : List UInt8) (frameIdx : Nat)
    (result : Except Fault Unit) (stats : DissectionStats) :
    settle env (bytes ++ pad) frameIdx result stats = settle env bytes frameIdx result stats := by
  unfold settle
  simp only [noteUndissectable_append env h pad]

/-- The same context, told about the padded frame. -/
def FrameContext.padded (ctx : FrameContext) (pad : List UInt8) : FrameContext :=
  { ctx with bytes := ctx.bytes ++ pad }

variable {ctx : FrameContext} (hctx : kEthernetHeaderLen ≤ ctx.bytes.length) (pad : List UInt8)

include hctx

theorem dissectIcmp_padded (l4 : List UInt8) :
    dissectIcmp env (ctx.padded pad) ip l4 = dissectIcmp env ctx ip l4 := by
  unfold dissectIcmp FrameContext.padded
  simp only [note_append env hctx pad]

theorem dissectUdp_padded (l4 : List UInt8) :
    dissectUdp env (ctx.padded pad) { eth with payload := eth.payload ++ pad } ip l4 =
      dissectUdp env ctx eth ip l4 := by
  unfold dissectUdp FrameContext.padded
  simp only [note_append env hctx pad]

theorem dissectTcp_padded (l4 : List UInt8) :
    dissectTcp env (ctx.padded pad) ip l4 = dissectTcp env ctx ip l4 := by
  unfold dissectTcp FrameContext.padded
  simp only [note_append env hctx pad]

theorem dissectIpv4_padded (h : WholePacket eth.payload)
    (hip : decodeIpv4Header eth.payload = some ip) :
    dissectIpv4 env (ctx.padded pad) { eth with payload := eth.payload ++ pad } ip =
      dissectIpv4 env ctx eth ip := by
  unfold dissectIpv4
  rw [l4Of_append h hip pad]
  simp only [dissectIcmp_padded env hctx pad, dissectUdp_padded env hctx pad,
    dissectTcp_padded env hctx pad]
  rfl

end Layers

/-! ## Markers -/

section Markers

variable {bytes : List UInt8} {eth : EthernetFrame} {ip : Ipv4Header}

/-- A datagram in the packet is no longer than the packet's Total Length says. -/
def UdpWithin (eth : EthernetFrame) (ip : Ipv4Header) : Prop :=
  ∀ udp, decodeUdp (l4Of eth ip) = some udp → udp.length.toNat ≤ (l4Of eth ip).length

/-- The type bytes of an untagged frame, and where its packet then stands. -/
theorem payload_of_type_bytes (heth : decodeEthernet bytes = some eth)
    (h12 : bytes.getD 12 0 = 0x08) : eth.payload = bytes.drop 14 := by
  unfold decodeEthernet at heth
  split at heth
  · cases heth
  next hshort =>
    rw [kEthernetHeaderLen] at hshort
    have huntagged : readBe16 bytes 12 ≠ kEtherTypeDot1Q := by
      have hpair : (bytes.drop 12).take 2 = [bytes.getD 12 0, bytes.getD 13 0] := by
        rw [List.drop_eq_getElem_cons (by omega), List.drop_eq_getElem_cons (by omega),
          List.getD_eq_getElem bytes 0 (by omega), List.getD_eq_getElem bytes 0 (by omega)]
        rfl
      have hlo := (bytes.getD 13 0).toNat_lt
      intro heq
      have hnat := congrArg UInt16.toNat heq
      rw [readBe16, readBe, hpair, h12, UInt16.toNat_ofNat'] at hnat
      change ((0 * 256 + 8) * 256 + (bytes.getD 13 0).toNat) % 65536 = 0x8100 at hnat
      omega
    dsimp only at heth
    rw [if_neg huntagged] at heth
    cases heth
    rfl

/-- **What a matcher sees of a control packet is within its Total Length**, when the datagram is. -/
theorem viewUdpFrame_append (heth : decodeEthernet bytes = some eth) (hwhole : WholePacket eth.payload)
    (hip : decodeIpv4Header eth.payload = some ip)
    (hudp : ip.protocol = kIpProtoUdp → ∃ udp, decodeUdp (l4Of eth ip) = some udp)
    (hwithin : UdpWithin eth ip) (pad : List UInt8) :
    viewUdpFrame (bytes ++ pad) = viewUdpFrame bytes := by
  obtain ⟨hheader, -⟩ := decodeEthernet_append heth pad
  rw [kEthernetHeaderLen] at hheader
  unfold viewUdpFrame
  dsimp only
  rw [getD_append_left (i := 12) (by omega), getD_append_left (i := 13) (by omega)]
  by_cases htype : bytes.getD 12 0 ≠ 0x08 ∨ bytes.getD 13 0 ≠ 0x00
  · rw [if_pos (.inr htype), if_pos (.inr htype)]
  rw [not_or, not_not, not_not] at htype
  have hdrop := payload_of_type_bytes heth htype.1
  have hdrop' : (bytes ++ pad).drop 14 = eth.payload ++ pad := by
    rw [List.drop_append_of_le_length hheader, ← hdrop]
  have hlength : bytes.length = 14 + eth.payload.length := by
    rw [hdrop, List.length_drop]
    omega
  have hlengths := hwhole.lengths hip
  have hfixed := hlengths.fixed
  have htotal := hlengths.total
  have hpresent := hlengths.present
  have hread : ¬ (bytes.length < 14 + 20 ∨ bytes.getD 12 0 ≠ 0x08 ∨ bytes.getD 13 0 ≠ 0x00) :=
    not_or.2 ⟨by omega, not_or.2 ⟨not_not.2 htype.1, not_not.2 htype.2⟩⟩
  have hread' : ¬ ((bytes ++ pad).length < 14 + 20 ∨ bytes.getD 12 0 ≠ 0x08 ∨
      bytes.getD 13 0 ≠ 0x00) := by
    refine not_or.2 ⟨?_, (not_or.1 hread).2⟩
    rw [List.length_append]
    omega
  rw [if_neg hread, if_neg hread', hdrop', ← hdrop,
    getD_append_left (i := 0) (by omega), getD_append_left (i := 9) (by omega),
    getD_append_left (i := 6) (by omega), getD_append_left (i := 7) (by omega), ← hlengths.headerLen]
  by_cases hproto : eth.payload.getD 9 0 ≠ 17
  · rw [if_pos (.inr (.inr (.inl hproto))), if_pos (.inr (.inr (.inl hproto)))]
  -- a datagram of the packet: its header and its Length lie within the Total Length
  obtain ⟨udp, hdec⟩ := hudp (hlengths.protocol.trans (not_not.1 hproto))
  have hwithin := hwithin udp hdec
  obtain ⟨h8, hlen⟩ : 8 ≤ (l4Of eth ip).length ∧ udp.length = readBe16 (l4Of eth ip) 4 := by
    unfold decodeUdp at hdec
    split at hdec
    · cases hdec
    next hshort =>
      cases hdec
      exact ⟨Nat.le_of_not_lt hshort, rfl⟩
  rw [hlen, hlengths.l4Of_eq] at hwithin
  rw [hlengths.l4Of_eq] at h8
  rw [List.length_take, List.length_drop, min_eq_left (by omega)] at hwithin h8
  have hword : readBe16 ((eth.payload.drop ip.headerLen).take (ip.totalLength.toNat - ip.headerLen)) 4 =
      readBe16 (eth.payload.drop ip.headerLen) 4 := by
    rw [readBe16, readBe16, readBe, readBe, List.drop_take, List.take_take, min_eq_left (by omega)]
  rw [hword] at hwithin
  have hdatagram : (eth.payload ++ pad).drop ip.headerLen = eth.payload.drop ip.headerLen ++ pad :=
    List.drop_append_of_le_length (by omega)
  have hrest : (eth.payload.drop ip.headerLen).length = eth.payload.length - ip.headerLen :=
    List.length_drop
  have hshort : ¬ bytes.length < 14 + ip.headerLen + 8 := by omega
  have hshort' : ¬ (bytes ++ pad).length < 14 + ip.headerLen + 8 := by
    rw [List.length_append]
    omega
  have hpast : ¬ 14 + ip.headerLen + (readBe16 (eth.payload.drop ip.headerLen) 4).toNat >
      bytes.length := by omega
  have hpast' : ¬ 14 + ip.headerLen + (readBe16 (eth.payload.drop ip.headerLen) 4).toNat >
      (bytes ++ pad).length := by
    rw [List.length_append]
    omega
  rw [hdatagram, readBe16_append (by omega) pad, readBe16_append (by omega) pad,
    readBe16_append (by omega) pad, copy32_append (by omega), copy32_append (by omega)]
  simp only [hshort, hshort', hpast, hpast', or_false, false_or]
  split
  · rfl
  · split
    · rfl
    · rw [slice_append (by omega)]

/-- The first marker that answers, and the others, are those of matchers that answer alike. -/
theorem takeMarker_congr {markers : List PendingMarker} {frame frame' : List UInt8}
    (h : ∀ m ∈ markers, m.matches_ frame' = m.matches_ frame) :
    takeMarker frame' markers = takeMarker frame markers := by
  have hfind : markers.find? (fun m => m.matches_ frame') = markers.find? fun m => m.matches_ frame :=
    List.find?_congr h
  have herase : markers.eraseP (fun m => m.matches_ frame') =
      markers.eraseP fun m => m.matches_ frame := by
    clear hfind
    induction markers with
    | nil => rfl
    | cons m markers ih =>
      rw [List.eraseP_cons, List.eraseP_cons, h m List.mem_cons_self,
        ih fun m' hm' => h m' (List.mem_cons_of_mem _ hm')]
  rw [takeMarker, takeMarker, hfind, herase]

end Markers

/-! ## One frame, padded -/

section Frame

variable {σ φ : Type} (env : Env σ φ)

/-- The frame with bytes appended behind it, captured as it was. -/
def PcapFrame.padded (f : PcapFrame) (pad : List UInt8) : PcapFrame :=
  { f with bytes := f.bytes ++ pad, len := f.len + pad.length }

/-- The frame carries an ARP packet or an IPv4 packet, and the whole of it. -/
def CarriesWhole (bytes : List UInt8) : Prop :=
  ∃ eth, decodeEthernet bytes = some eth ∧
    (eth.etherType = kEtherTypeArp ∧ kArpEthernetIpv4Len ≤ eth.payload.length ∨
      eth.etherType = kEtherTypeIpv4 ∧ WholePacket eth.payload)

/-- Where the packet is withheld, its datagram is no longer than its Total Length says. -/
def ControlWithin (bytes : List UInt8) : Prop :=
  ∀ eth ip, decodeEthernet bytes = some eth → decodeIpv4Header eth.payload = some ip →
    withheld env eth ip = true → UdpWithin eth ip

variable {env}

/-- A withheld packet of the UDP protocol holds a datagram. -/
theorem exists_datagram_of_withheld {eth : EthernetFrame} {ip : Ipv4Header}
    (h : withheld env eth ip = true) (hproto : ip.protocol = kIpProtoUdp) :
    ∃ udp, decodeUdp (l4Of eth ip) = some udp := by
  simp only [withheld, isControlPlanePacket, hproto, Bool.and_eq_true] at h
  cases hdec : decodeUdp (l4Of eth ip) with
  | none => simp [hdec] at h
  | some udp => exact ⟨udp, rfl⟩

theorem withhold_padded {bytes : List UInt8} {s : Pipeline σ φ} (pad : List UInt8)
    (htake : takeMarker (bytes ++ pad) s.markers = takeMarker bytes s.markers) :
    withhold env (bytes ++ pad) s = withhold env bytes s := by
  cases hlistener : env.markerListener with
  | none =>
    unfold withhold
    rw [hlistener]
  | some handler =>
    rw [withhold_run_some env hlistener, withhold_run_some env hlistener, htake]
    unfold withheldState
    rw [htake]

/-- Layer by layer: the padded frame is dissected as the frame is. -/
theorem dissectFrame_padded {bytes : List UInt8} (hcarries : CarriesWhole bytes)
    (hwithin : ControlWithin env bytes) (pad : List UInt8) {s : Pipeline σ φ}
    (hmarkers : ∀ m ∈ s.markers, AckMarker m) (frameIdx : Nat) (ts : Int) :
    dissectFrame env (bytes ++ pad) frameIdx ts s = dissectFrame env bytes frameIdx ts s := by
  obtain ⟨eth, heth, hpacket⟩ := hcarries
  obtain ⟨hheader, heth'⟩ := decodeEthernet_append heth pad
  unfold dissectFrame
  rw [heth, heth']
  dsimp only
  rcases hpacket with ⟨htype, hlen⟩ | ⟨htype, hwhole⟩
  · rw [if_pos htype, if_pos htype, decodeArp_append hlen, note_append env hheader]
    rfl
  · have harp : eth.etherType ≠ kEtherTypeArp := by
      rw [htype]
      decide
    rw [if_neg harp, if_neg harp, if_neg (not_not.2 htype), if_neg (not_not.2 htype),
      decodeIpv4Header_append hwhole, note_append env hheader]
    cases hip : decodeIpv4Header eth.payload with
    | none => rfl
    | some ip =>
      dsimp only
      have hheld : withheld env { eth with payload := eth.payload ++ pad } ip =
          withheld env eth ip := by
        rw [withheld, withheld, l4Of_append hwhole hip]
      rw [hheld]
      by_cases hw : withheld env eth ip = true
      · rw [if_pos hw, if_pos hw]
        refine withhold_padded pad (takeMarker_congr fun m hm => ?_)
        refine (hmarkers m hm).matches_congr ?_
        exact viewUdpFrame_append heth hwhole hip (exists_datagram_of_withheld hw)
          (hwithin eth ip heth hip hw) pad
      · rw [if_neg hw, if_neg hw]
        have hctx : kEthernetHeaderLen ≤
            (FrameContext.mk bytes frameIdx ts (dot1qTagFrom eth)).bytes.length := hheader
        exact congrFun (dissectIpv4_padded env hctx pad hwhole hip) s

/-- **Link-layer padding is invisible.** For a frame with a whole ARP packet, or an IPv4 packet whose
Total Length covers its header and is all there, every byte string appended to it, and every state whose
pending markers are those of the control backends, the pipeline hands on the same events, makes the same
control-plane decision and ends in the same state. A packet it withholds as control traffic must not
hold a datagram longer than its Total Length says: its marker is matched on the captured frame. -/
theorem padding_invisible (s : Pipeline σ φ) (f : PcapFrame) (pad : List UInt8)
    (hcarries : CarriesWhole f.bytes) (hmarkers : ∀ m ∈ s.markers, AckMarker m)
    (hwithin : ControlWithin env f.bytes) :
    processFrame env s (f.padded pad) = processFrame env s f := by
  have hheader : kEthernetHeaderLen ≤ f.bytes.length := by
    obtain ⟨eth, heth, -⟩ := hcarries
    exact (decodeEthernet_append heth pad).1
  have hbytes : (f.padded pad).bytes = f.bytes ++ pad := rfl
  have hlength : (f.padded pad).bytes.length = f.bytes.length + pad.length := List.length_append
  by_cases hdlt : f.datalink = kDltEn10mb
  · by_cases hlen : f.len ≤ f.bytes.length
    · have hlen' : (f.padded pad).len ≤ (f.padded pad).bytes.length := by
        rw [hlength]
        exact Nat.add_le_add_right hlen _
      have hmarkers' : ∀ m ∈ (dissectStart env s f).markers, AckMarker m := hmarkers
      have hrun : dissectFrame env (f.padded pad).bytes s.stats.framesSeen
          (observedTsUsOf env (f.padded pad)) (dissectStart env s (f.padded pad)) =
          dissectFrame env f.bytes s.stats.framesSeen (observedTsUsOf env f) (dissectStart env s f) :=
        dissectFrame_padded hcarries hwithin pad hmarkers' _ _
      rw [processFrame_eq env s f hdlt hlen, processFrame_eq env s (f.padded pad) hdlt hlen', hrun,
        caught, caught, hbytes, settle_append env hheader pad]
    · have hlen' : ¬ (f.padded pad).len ≤ (f.padded pad).bytes.length := by
        rw [hlength]
        exact fun h => hlen (Nat.le_of_add_le_add_right h)
      rw [processFrame_truncated env s f hdlt hlen,
        processFrame_truncated env s (f.padded pad) hdlt hlen']
  · rw [processFrame_not_ethernet env s f hdlt, processFrame_not_ethernet env s (f.padded pad) hdlt]

end Frame

/-! ## Three frames -/

/-- A case that awaits the acknowledgement of a step over the opcode backend. -/
def controlEnv : Env Unit Unit where
  listener := fun s _ => (s, none)
  markerListener := some fun s _ => (s, none)
  processPacket := fun s _ => .done s
  controlPlanePort := kUtPort

def awaitedStep : PendingMarker where
  token := 1
  name := "install_static_entry"
  matches_ := utAckMatcher 0x0200000A 0x0100000A 49152 0x81 7

def awaitingPipeline : Pipeline Unit Unit where
  consumer := ()
  follower := ()
  markers := [awaitedStep]

/-- A datagram from 10.0.0.2:30600 to 10.0.0.1:49152 with the Length and the data given, in a packet
that ends with the data. -/
def controlFrame (length : UInt8) (data : List UInt8) : PcapFrame where
  bytes := [2, 0, 0, 0, 0, 1, 2, 0, 0, 0, 0, 2, 0x08, 0x00,
    0x45, 0, 0, 28 + UInt8.ofNat data.length, 0, 0, 0, 0, 64, 17, 0, 0, 10, 0, 0, 2, 10, 0, 0, 1,
    0x77, 0x88, 0xC0, 0, 0, length, 0, 0] ++ data
  len := 42 + data.length
  tvSec := 0
  tvUsec := 0
  datalink := kDltEn10mb

/-- The acknowledgement, padded to the least size of a frame. -/
theorem padding_of_acknowledgement :
    CarriesWhole (controlFrame 11 [0x81, 7, 0]).bytes ∧ AckMarker awaitedStep ∧
      ControlWithin controlEnv (controlFrame 11 [0x81, 7, 0]).bytes ∧
      processFrame controlEnv awaitingPipeline
          ((controlFrame 11 [0x81, 7, 0]).padded (List.replicate 15 0)) =
        processFrame controlEnv awaitingPipeline (controlFrame 11 [0x81, 7, 0]) := by
  have hcarries : CarriesWhole (controlFrame 11 [0x81, 7, 0]).bytes :=
    ⟨_, rfl, .inr ⟨by decide, by decide, by decide, by decide⟩⟩
  have hack : AckMarker awaitedStep := .inl ⟨_, _, _, _, _, rfl⟩
  have hwithin : ControlWithin controlEnv (controlFrame 11 [0x81, 7, 0]).bytes := by
    intro eth ip heth hip _ udp hudp
    cases heth
    cases hip
    cases hudp
    decide
  refine ⟨hcarries, hack, hwithin, padding_invisible _ _ _ hcarries ?_ hwithin⟩
  intro m hm
  rw [List.mem_singleton.1 hm]
  exact hack

/-- An ARP frame that ends within the addresses. -/
def shortArp : PcapFrame where
  bytes := [255, 255, 255, 255, 255, 255, 2, 0, 0, 0, 0, 2, 0x08, 0x06,
    0, 1, 8, 0, 6, 4, 0, 1, 2, 0, 0, 0, 0, 2, 10, 0, 0, 2]
  len := 32
  tvSec := 0
  tvUsec := 0
  datalink := kDltEn10mb

/-- Padding that shows: behind an ARP packet cut short it is read as the missing addresses, and behind a
control packet whose datagram claims more than the packet holds it is read as the acknowledgement. -/
theorem padding_shows :
    ((∃ eth, decodeEthernet shortArp.bytes = some eth ∧ eth.etherType = kEtherTypeArp) ∧
      (processFrame controlEnv awaitingPipeline shortArp).calls.length = 0 ∧
      (processFrame controlEnv awaitingPipeline
        (shortArp.padded (List.replicate 28 0))).calls.length = 1) ∧
    (CarriesWhole (controlFrame 11 []).bytes ∧ AckMarker awaitedStep ∧
      (processFrame controlEnv awaitingPipeline (controlFrame 11 [])).calls.length = 0 ∧
      (processFrame controlEnv awaitingPipeline
        ((controlFrame 11 []).padded [0x81, 7, 0])).calls.length = 1) := by
  refine ⟨⟨⟨_, rfl, by decide⟩, by decide +kernel, by decide +kernel⟩, ?_, .inl ⟨_, _, _, _, _, rfl⟩,
    by decide +kernel, by decide +kernel⟩
  exact ⟨_, rfl, .inr ⟨by decide, by decide, by decide, by decide⟩⟩

end Tc8Harness.Dissect
