import Tc8Harness.Someip.Wire

/-!
# The method responder's request parsers

`parseMethodRequest` and `parseFirstTpRequestSegment` of `stimulus/responders/method_responder.cpp`:
they walk a captured Ethernet frame down to its SOME/IP header and cut the arguments out by the UDP
Length. `UdpCarrier` is any untagged frame around a UDP datagram; `responder_request_parsing` says what
the parsers make of a request, and of the segments of one, carried in such frames.
-/

namespace Tc8Harness.Stimulus

open BigEndian Wire Someip
open SomeipTp (Segmenter MessageHeader kTpHeaderLen kSegmentHeaderLen kMessageTypeTpFlag parseTpHeader
  put32be tpWord segmentFrame)

/-! ## The parsers -/

namespace Responder

def kEthHdrLen : Nat := 14
def kIpv4MinHdrLen : Nat := 20
def kUdpHdrLen : Nat := 8
def kIpProtoUdp : UInt8 := 17

structure MethodRequestObservation where
  srcIpBe : UInt32
  srcPort : UInt16
  serviceId : UInt16
  methodId : UInt16
  clientId : UInt16
  sessionId : UInt16
  payload : List UInt8
  deriving DecidableEq, Repr

structure UdpSomeIp where
  h : Header
  srcIpBe : UInt32
  srcPort : UInt16
  someipOff : Nat
  udpTotal : UInt16
  deriving DecidableEq, Repr

/-- The walk shared by both parsers. The extent is checked again once the IPv4 options are known. -/
def parseUdpSomeIp (frame : List UInt8) (serviceId methodId servicePort : UInt16) :
    Option UdpSomeIp :=
  if frame.length < kEthHdrLen + kIpv4MinHdrLen + kUdpHdrLen + kHeaderSize then none
  else if readBe16 frame 12 ≠ kEtherTypeIpv4 then none
  else
    let ip := frame.drop kEthHdrLen
    let ihl := (ip.getD 0 0 &&& 0x0F).toNat * 4
    if ip.getD 0 0 >>> 4 ≠ 4 then none
    else if ihl < kIpv4MinHdrLen ∨ ip.getD 9 0 ≠ kIpProtoUdp then none
    else if frame.length < kEthHdrLen + ihl + kUdpHdrLen + kHeaderSize then none
    else
      let udp := ip.drop ihl
      if readBe16 udp 2 ≠ servicePort then none
      else
        match parseHeader (.bytes (udp.drop kUdpHdrLen)) with
        | none => none
        | some h =>
          if h.serviceId ≠ serviceId ∨ h.methodId ≠ methodId then none
          else
            some
              { h := h
                srcIpBe := copy32 ip 12
                srcPort := readBe16 udp 0
                someipOff := kEthHdrLen + ihl + kUdpHdrLen
                udpTotal := readBe16 udp 4 }

/-- What follows `headerBytes` of header, no longer than the UDP Length says and than the frame is. -/
def extractArgs (frame : List UInt8) (argsOff : Nat) (udpTotal : UInt16) (headerBytes : Nat) :
    List UInt8 :=
  let byUdp :=
    if udpTotal.toNat ≥ kUdpHdrLen + headerBytes then udpTotal.toNat - kUdpHdrLen - headerBytes else 0
  let avail := if frame.length > argsOff then frame.length - argsOff else 0
  (frame.drop argsOff).take (min avail byUdp)

def observation (p : UdpSomeIp) (payload : List UInt8) : MethodRequestObservation :=
  { srcIpBe := p.srcIpBe
    srcPort := p.srcPort
    serviceId := p.h.serviceId
    methodId := p.h.methodId
    clientId := p.h.clientId
    sessionId := p.h.sessionId
    payload := payload }

def parseMethodRequest (frame : List UInt8) (serviceId methodId servicePort : UInt16) :
    Option MethodRequestObservation :=
  match parseUdpSomeIp frame serviceId methodId servicePort with
  | none => none
  | some p =>
    if p.h.messageType ≠ MessageType.REQUEST.toUInt8 then none
    else
      some (observation p
        (extractArgs frame (p.someipOff + kHeaderSize) p.udpTotal kHeaderSize))

def kTpRequest : UInt8 := MessageType.REQUEST.toUInt8 ||| kMessageTypeTpFlag

def parseFirstTpRequestSegment (frame : List UInt8) (serviceId methodId servicePort : UInt16) :
    Option MethodRequestObservation :=
  match parseUdpSomeIp frame serviceId methodId servicePort with
  | none => none
  | some p =>
    let tpOff := p.someipOff + kHeaderSize
    if p.h.messageType ≠ kTpRequest then none
    else if frame.length < tpOff + kTpHeaderLen then none
    else
      match parseTpHeader (frame.drop tpOff) with
      | none => none
      | some tp =>
        if tp.offset ≠ 0 then none
        else
          some (observation p
            (extractArgs frame (p.someipOff + kSegmentHeaderLen) p.udpTotal kSegmentHeaderLen))

end Responder

/-! ## Frames around a UDP datagram -/

/-- What an untagged Ethernet frame with IPv4 and UDP carries besides the datagram's data: any
addresses, any options and any value in the fields that the parsers skip. -/
structure UdpCarrier where
  macs : List UInt8
  ihl : Nat
  /-- TOS, Total Length, Identification, flags and fragment offset, TTL. -/
  middle : List UInt8
  headerChecksum : UInt16
  srcIp : UInt32
  dstIp : UInt32
  options : List UInt8
  srcPort : UInt16
  dstPort : UInt16
  udpChecksum : UInt16
  macs_length : macs.length = 12
  ihl_ge : 5 ≤ ihl
  ihl_lt : ihl < 16
  middle_length : middle.length = 8
  options_length : options.length = (ihl - 5) * 4

namespace UdpCarrier

variable (c : UdpCarrier)

def ipHeader : List UInt8 :=
  (0x40 ||| UInt8.ofNat c.ihl) :: c.middle ++ (Responder.kIpProtoUdp :: putBe16 c.headerChecksum ++
    (bytes32 c.srcIp ++ (bytes32 c.dstIp ++ c.options)))

def udpHeader (len : Nat) : List UInt8 :=
  putBe16 c.srcPort ++ (putBe16 c.dstPort ++ (putBe16 (UInt16.ofNat (Responder.kUdpHdrLen + len)) ++
    putBe16 c.udpChecksum))

/-- The frame of a datagram with this message in it, followed by link-layer padding. -/
def frame (message padding : List UInt8) : List UInt8 :=
  (c.macs ++ putBe16 kEtherTypeIpv4) ++ (c.ipHeader ++ (c.udpHeader message.length ++
    (message ++ padding)))

theorem length_ipHeader : c.ipHeader.length = c.ihl * 4 := by
  have := c.ihl_ge
  simp [ipHeader, c.middle_length, c.options_length]
  omega

theorem length_udpHeader (len : Nat) : (c.udpHeader len).length = 8 := by
  simp [udpHeader]

theorem ihl_byte : (0x40 ||| UInt8.ofNat c.ihl) >>> 4 = 4 ∧
    ((0x40 ||| UInt8.ofNat c.ihl) &&& 0x0F).toNat = c.ihl := by
  have hall : ∀ ihl < 16, (0x40 ||| UInt8.ofNat ihl) >>> 4 = 4 ∧
      ((0x40 ||| UInt8.ofNat ihl) &&& 0x0F).toNat = ihl := by
    decide
  exact hall c.ihl c.ihl_lt

variable (message padding : List UInt8)

theorem length_frame : (c.frame message padding).length =
    14 + c.ihl * 4 + 8 + message.length + padding.length := by
  simp [frame, c.macs_length, c.length_ipHeader, c.length_udpHeader]
  omega

theorem drop_ethernet : (c.frame message padding).drop Responder.kEthHdrLen =
    c.ipHeader ++ (c.udpHeader message.length ++ (message ++ padding)) :=
  List.drop_left' (by simp [c.macs_length, Responder.kEthHdrLen])

/-- What stands `n` bytes into the message. -/
theorem drop_message {n : Nat} (h : n ≤ message.length) :
    (c.frame message padding).drop (14 + c.ihl * 4 + 8 + n) = message.drop n ++ padding := by
  have hhead : ((c.macs ++ putBe16 kEtherTypeIpv4) ++ (c.ipHeader ++
      c.udpHeader message.length)).length = 14 + c.ihl * 4 + 8 := by
    simp [c.macs_length, c.length_ipHeader, c.length_udpHeader]
    omega
  have hframe : c.frame message padding = ((c.macs ++ putBe16 kEtherTypeIpv4) ++ (c.ipHeader ++
      c.udpHeader message.length)) ++ (message ++ padding) := by
    simp [frame]
  rw [hframe, ← hhead, List.drop_length_add_append, List.drop_append_of_le_length h]

/-- The walk ends at the SOME/IP header of the message. -/
theorem parseUdpSomeIp_frame {h : Header} {rest : List UInt8} (hm : message = appendHeader h ++ rest) :
    Responder.parseUdpSomeIp (c.frame message padding) h.serviceId h.methodId c.dstPort =
      some { h := h
             srcIpBe := c.srcIp
             srcPort := c.srcPort
             someipOff := 14 + c.ihl * 4 + 8
             udpTotal := UInt16.ofNat (8 + message.length) } := by
  have hihl := c.ihl_ge
  have hlen : message.length = 16 + rest.length := by simp [hm]
  have htype : readBe16 (c.frame message padding) 12 = kEtherTypeIpv4 := by
    rw [readBe16, frame, readBe_append_left (by simp [c.macs_length]),
      readBe_append_right (by simp [c.macs_length]), c.macs_length]
    decide
  have hbyte0 : (c.ipHeader ++ (c.udpHeader message.length ++ (message ++ padding))).getD 0 0 =
      0x40 ||| UInt8.ofNat c.ihl := rfl
  have hbyte9 : (c.ipHeader ++ (c.udpHeader message.length ++ (message ++ padding))).getD 9 0 =
      Responder.kIpProtoUdp := by
    rw [ipHeader, List.append_assoc, getD_append_right (by simp [c.middle_length])]
    simp [c.middle_length]
  have hsrc : copy32 (c.ipHeader ++ (c.udpHeader message.length ++ (message ++ padding))) 12 =
      c.srcIp := by
    rw [ipHeader, List.append_assoc, copy32_append_right (by simp [c.middle_length]),
      List.append_assoc, copy32_append_right (by simp [c.middle_length]), List.append_assoc]
    simp [c.middle_length, copy32_bytes32]
  have hudp : (c.ipHeader ++ (c.udpHeader message.length ++ (message ++ padding))).drop (c.ihl * 4) =
      c.udpHeader message.length ++ (message ++ padding) := List.drop_left' c.length_ipHeader
  have hsip : (c.udpHeader message.length ++ (message ++ padding)).drop Responder.kUdpHdrLen =
      appendHeader h ++ (rest ++ padding) := by
    have hdrop : (c.udpHeader message.length ++ (message ++ padding)).drop Responder.kUdpHdrLen =
        message ++ padding := List.drop_left' (c.length_udpHeader _)
    rw [hdrop, hm, List.append_assoc]
  have hport : readBe16 (c.udpHeader message.length ++ (message ++ padding)) 2 = c.dstPort := by
    simp only [udpHeader, List.append_assoc, readBe16]
    simp (disch := simp) only [readBe_append_right, length_putBe16, Nat.reduceSub, readBe_putBe16,
      UInt16.ofNat_toNat]
  have hsport : readBe16 (c.udpHeader message.length ++ (message ++ padding)) 0 = c.srcPort := by
    simp only [udpHeader, List.append_assoc, readBe16, readBe_putBe16, UInt16.ofNat_toNat]
  have htotal : readBe16 (c.udpHeader message.length ++ (message ++ padding)) 4 =
      UInt16.ofNat (8 + message.length) := by
    simp only [udpHeader, List.append_assoc, readBe16]
    simp (disch := simp) only [readBe_append_right, length_putBe16, Nat.reduceSub, readBe_putBe16,
      UInt16.ofNat_toNat, Responder.kUdpHdrLen]
  obtain ⟨hversion, hwords⟩ := c.ihl_byte
  have hlong : ¬ (c.frame message padding).length < Responder.kEthHdrLen +
      Responder.kIpv4MinHdrLen + Responder.kUdpHdrLen + kHeaderSize := by
    rw [c.length_frame, hlen, Responder.kEthHdrLen, Responder.kIpv4MinHdrLen, Responder.kUdpHdrLen,
      kHeaderSize]
    omega
  have hextent : ¬ (c.frame message padding).length < Responder.kEthHdrLen + c.ihl * 4 +
      Responder.kUdpHdrLen + kHeaderSize := by
    rw [c.length_frame, hlen, Responder.kEthHdrLen, Responder.kUdpHdrLen, kHeaderSize]
    omega
  have hmin : ¬ c.ihl * 4 < Responder.kIpv4MinHdrLen := by
    rw [Responder.kIpv4MinHdrLen]
    omega
  simp only [Responder.parseUdpSomeIp, if_neg hlong, htype, c.drop_ethernet, hbyte0, hversion, hwords,
    hbyte9, hmin, hextent, hudp, hport, hsip, parseHeader_appendHeader, hsrc, hsport, htotal, ne_eq,
    not_true_eq_false, or_self, if_false]
  rfl

/-- The arguments cut out by the UDP Length are the message behind its header, without the padding. -/
theorem extractArgs_frame {n : Nat} (hn : n ≤ message.length) (hfits : 8 + message.length < 2 ^ 16) :
    Responder.extractArgs (c.frame message padding) (14 + c.ihl * 4 + 8 + n)
      (UInt16.ofNat (8 + message.length)) n = message.drop n := by
  have htotal : (UInt16.ofNat (8 + message.length)).toNat = 8 + message.length :=
    UInt16.toNat_ofNat_of_lt' hfits
  have hudp : (if (UInt16.ofNat (8 + message.length)).toNat ≥ Responder.kUdpHdrLen + n then
      (UInt16.ofNat (8 + message.length)).toNat - Responder.kUdpHdrLen - n else 0) =
      message.length - n := by
    rw [htotal, Responder.kUdpHdrLen, if_pos (by omega)]
    omega
  have havail : (if (c.frame message padding).length > 14 + c.ihl * 4 + 8 + n then
      (c.frame message padding).length - (14 + c.ihl * 4 + 8 + n) else 0) =
      message.length - n + padding.length := by
    rw [c.length_frame]
    split <;> omega
  rw [Responder.extractArgs, hudp, havail, c.drop_message message padding hn,
    Nat.min_eq_right (Nat.le_add_right _ _), List.take_left' (List.length_drop)]

end UdpCarrier

/-! ## Requests -/

/-- The observation of a message from this carrier's sender. -/
def UdpCarrier.observed (c : UdpCarrier) (h : Header) (payload : List UInt8) :
    Responder.MethodRequestObservation :=
  { srcIpBe := c.srcIp
    srcPort := c.srcPort
    serviceId := h.serviceId
    methodId := h.methodId
    clientId := h.clientId
    sessionId := h.sessionId
    payload := payload }

theorem parseMethodRequest_frame (c : UdpCarrier) {h : Header} (payload padding : List UInt8)
    (htype : h.messageType = MessageType.REQUEST.toUInt8)
    (hfits : 8 + (appendHeader h ++ payload).length < 2 ^ 16) :
    Responder.parseMethodRequest (c.frame (appendHeader h ++ payload) padding) h.serviceId h.methodId
      c.dstPort = some (c.observed h payload) := by
  have hargs := c.extractArgs_frame (appendHeader h ++ payload) padding (n := 16) (by simp) hfits
  rw [List.drop_left' (length_appendHeader h)] at hargs
  simp only [Responder.parseMethodRequest, c.parseUdpSomeIp_frame _ _ rfl, htype, ne_eq,
    not_true_eq_false, if_false, kHeaderSize, hargs]
  rfl

/-! ## Segments -/

/-- The SOME/IP header a segment starts with. -/
def tpHeader (hdr : MessageHeader) (len : Nat) : Header :=
  { serviceId := UInt16.ofNat (hdr.messageId.toNat / 2 ^ 16)
    methodId := UInt16.ofNat hdr.messageId.toNat
    length := UInt32.ofNat
      (SomeipTp.kLengthCoveredHeaderBytes + SomeipTp.kTpHeaderLen + len)
    clientId := UInt16.ofNat (hdr.requestId.toNat / 2 ^ 16)
    sessionId := UInt16.ofNat hdr.requestId.toNat
    protocolVersion := hdr.protocolVersion
    interfaceVersion := hdr.interfaceVersion
    messageType := hdr.messageType ||| kMessageTypeTpFlag
    returnCode := hdr.returnCode }

/-- A 32-bit word is written as its two halves. -/
theorem put32be_halves (v : UInt32) :
    put32be v = putBe16 (UInt16.ofNat (v.toNat / 2 ^ 16)) ++ putBe16 (UInt16.ofNat v.toNat) := by
  have hbyte {a b : Nat} (h : a % 256 = b % 256) : UInt8.ofNat a = UInt8.ofNat b := by
    apply UInt8.toNat_inj.1
    rw [UInt8.toNat_ofNat', UInt8.toNat_ofNat']
    exact h
  have hv := v.toNat_lt
  simp only [put32be, putBe16, toBE, UInt16.toNat_ofNat', List.cons_append, List.nil_append,
    List.cons.injEq, and_true]
  refine ⟨hbyte ?_, hbyte ?_, hbyte ?_, hbyte ?_⟩ <;> omega

theorem segmentFrame_eq (hdr : MessageHeader) (reserved : UInt8) (offset : Nat) (more : Bool)
    (data : List UInt8) : segmentFrame hdr reserved offset more data =
      appendHeader (tpHeader hdr data.length) ++ (put32be (tpWord offset reserved more) ++ data) := by
  rw [segmentFrame, put32be_halves hdr.messageId, put32be_halves hdr.requestId]
  simp only [appendHeader, tpHeader, List.append_assoc]
  rfl

theorem parseFirstTpRequestSegment_frame (c : UdpCarrier) {hdr : MessageHeader} (reserved : UInt8)
    {offset : Nat} (more : Bool) (data padding : List UInt8)
    (htype : hdr.messageType = MessageType.REQUEST.toUInt8) (h16 : offset % 16 = 0)
    (hlt : offset < 2 ^ 32)
    (hfits : 8 + (segmentFrame hdr reserved offset more data).length < 2 ^ 16) :
    Responder.parseFirstTpRequestSegment
        (c.frame (segmentFrame hdr reserved offset more data) padding)
        (tpHeader hdr data.length).serviceId (tpHeader hdr data.length).methodId c.dstPort =
      if offset = 0 then some (c.observed (tpHeader hdr data.length) data) else none := by
  have hframe := segmentFrame_eq hdr reserved offset more data
  have hlen : (segmentFrame hdr reserved offset more data).length = 20 + data.length := by
    simp [hframe]
    omega
  have hargs := c.extractArgs_frame (segmentFrame hdr reserved offset more data) padding (n := 20)
    (by omega) hfits
  have hdata : (segmentFrame hdr reserved offset more data).drop 20 = data := by
    rw [hframe, ← List.append_assoc]
    exact List.drop_left' (by simp)
  have htp : (c.frame (segmentFrame hdr reserved offset more data) padding).drop
      (14 + c.ihl * 4 + 8 + kHeaderSize) =
        put32be (tpWord offset reserved more) ++ (data ++ padding) := by
    rw [c.drop_message _ _ (by rw [hlen, kHeaderSize]; omega), hframe, kHeaderSize,
      List.drop_left' (length_appendHeader _), List.append_assoc]
  have hlong : ¬ (c.frame (segmentFrame hdr reserved offset more data) padding).length <
      14 + c.ihl * 4 + 8 + kHeaderSize + kTpHeaderLen := by
    rw [c.length_frame, hlen, kHeaderSize, kTpHeaderLen]
    omega
  have hrequest : (tpHeader hdr data.length).messageType = Responder.kTpRequest := by
    rw [tpHeader, htype]
    rfl
  simp only [Responder.parseFirstTpRequestSegment, c.parseUdpSomeIp_frame _ _ hframe, hrequest, ne_eq,
    not_true_eq_false, if_false, if_neg hlong, htp,
    SomeipTp.parseTpHeader_tpWord reserved more h16 hlt]
  by_cases hzero : offset = 0
  · simp only [hzero, not_true_eq_false, if_false, if_true, Option.some.injEq]
    rw [hzero] at hargs hdata
    rw [show kSegmentHeaderLen = 20 from rfl, hargs, hdata]
    rfl
  · simp [hzero]

/-- **Request parsing.** A request in any carrier comes back with its sender, its ids and its payload;
of the segments of a request only the first triggers, with its own payload. -/
theorem responder_request_parsing :
    (∀ (c : UdpCarrier) (h : Header) (payload padding : List UInt8),
      h.messageType = MessageType.REQUEST.toUInt8 →
      8 + (appendHeader h ++ payload).length < 2 ^ 16 →
      Responder.parseMethodRequest (c.frame (appendHeader h ++ payload) padding) h.serviceId h.methodId
        c.dstPort = some (c.observed h payload)) ∧
    ∀ (seg : Segmenter) (hdr : MessageHeader) (payload : SomeipTp.Buffer) (reserved : UInt8)
      (frames : List (List UInt8)), seg.segment hdr payload reserved = .ok frames →
      hdr.messageType = MessageType.REQUEST.toUInt8 →
      (∀ f ∈ frames, 8 + f.length < 2 ^ 16) →
      ∀ (port : UInt16) (carrier : Nat → UdpCarrier) (padding : Nat → List UInt8),
        (∀ k, (carrier k).dstPort = port) →
        frames ≠ [] ∧ ∀ k f, frames[k]? = some f →
          Responder.parseFirstTpRequestSegment ((carrier k).frame f (padding k))
              (tpHeader hdr 0).serviceId (tpHeader hdr 0).methodId port =
            if k = 0 then some ((carrier 0).observed (tpHeader hdr 0) (seg.chunk payload.data 0))
            else none := by
  refine ⟨fun c h payload padding htype hfits => parseMethodRequest_frame c payload padding htype hfits,
    ?_⟩
  intro seg hdr payload reserved frames hseg htype hfits port carrier padding hport
  obtain ⟨rfl, hoffset⟩ := seg.segment_eq hdr payload reserved hseg
  refine ⟨by simp [Segmenter.count], ?_⟩
  intro k f hk
  rw [List.getElem?_map, Option.map_eq_some_iff] at hk
  obtain ⟨_, hrange, rfl⟩ := hk
  obtain ⟨hlt, rfl⟩ := List.getElem?_eq_some_iff.1 hrange
  rw [List.length_range] at hlt
  have hfit := hfits _ (List.mem_map_of_mem (List.mem_range.2 hlt))
  rw [Segmenter.frame] at hfit
  rw [List.getElem_range, Segmenter.frame]
  have haligned : k * seg.maxSegmentPayload % 16 = 0 := by
    have := seg.aligned
    rw [SomeipTp.kOffsetGranularity] at this
    rw [Nat.mul_mod, this, Nat.mul_zero, Nat.zero_mod]
  have hsmall : k * seg.maxSegmentPayload < 2 ^ 32 := by
    have hle : k * seg.maxSegmentPayload ≤
        (seg.count payload.data.length - 1) * seg.maxSegmentPayload :=
      Nat.mul_le_mul_right _ (by omega)
    exact lt_of_le_of_lt (hle.trans hoffset) (by decide)
  have hparse := parseFirstTpRequestSegment_frame (carrier k) reserved
    (decide (k + 1 < seg.count payload.data.length)) (seg.chunk payload.data k) (padding k) htype
    haligned hsmall hfit
  rw [hport k] at hparse
  refine hparse.trans ?_
  by_cases hzero : k = 0
  · subst hzero
    simp [UdpCarrier.observed, tpHeader]
  · rw [if_neg hzero, if_neg (Nat.mul_ne_zero hzero seg.nonzero)]

/-- A carrier with one word of options. -/
def exampleCarrier : UdpCarrier where
  macs := List.replicate 12 2
  ihl := 6
  middle := [0, 0, 60, 0, 1, 0, 0, 64]
  headerChecksum := 0
  srcIp := 0x0200A8C0
  dstIp := 0x0100A8C0
  options := [1, 1, 1, 0]
  srcPort := 40000
  dstPort := 30509
  udpChecksum := 0
  macs_length := rfl
  ihl_ge := by decide
  ihl_lt := by decide
  middle_length := rfl
  options_length := rfl

/-- A request of three bytes in a padded frame, and one of twenty bytes in two segments. -/
theorem responder_request_parsing_of_example :
    Responder.parseMethodRequest
        (exampleCarrier.frame (appendHeader { serviceId := 0x1111, methodId := 1 } ++ [1, 2, 3])
          [0, 0]) 0x1111 1 30509 =
        some (exampleCarrier.observed { serviceId := 0x1111, methodId := 1 } [1, 2, 3]) ∧
      ∃ frames, Segmenter.segment ⟨16, by decide, by decide, by decide⟩
          ⟨0x11110001, 0x00020003, 1, 1, 0, 0⟩ (.bytes (List.replicate 20 7)) 0 = .ok frames ∧
        frames.length = 2 ∧ ∀ k f, frames[k]? = some f →
          ((Responder.parseFirstTpRequestSegment (exampleCarrier.frame f []) 0x1111 1 30509).isSome ↔
            k = 0) := by
  let seg : Segmenter := ⟨16, by decide, by decide, by decide⟩
  let hdr : MessageHeader := ⟨0x11110001, 0x00020003, 1, 1, 0, 0⟩
  have hloop := seg.segmentLoop_zero hdr (List.replicate 20 7) 0
  have hseg : seg.segment hdr (.bytes (List.replicate 20 7)) 0 =
      .ok (seg.segmentLoop hdr (List.replicate 20 7) 0 0) := if_neg (by decide)
  have hfits : ∀ f ∈ seg.segmentLoop hdr (List.replicate 20 7) 0 0, 8 + f.length < 2 ^ 16 := by
    rw [hloop]
    decide
  obtain ⟨hrequest, hsegments⟩ := responder_request_parsing
  refine ⟨hrequest exampleCarrier _ [1, 2, 3] [0, 0] rfl (by decide), _, hseg,
    by rw [hloop]; decide, ?_⟩
  intro k f hk
  have hparse := (hsegments seg hdr _ 0 _ hseg rfl hfits 30509 (fun _ => exampleCarrier) (fun _ => [])
    (fun _ => rfl)).2 k f hk
  have hservice : (tpHeader hdr 0).serviceId = 0x1111 := by decide
  have hmethod : (tpHeader hdr 0).methodId = 1 := by decide
  rw [hservice, hmethod] at hparse
  rw [hparse]
  split <;> simp_all

end Tc8Harness.Stimulus
