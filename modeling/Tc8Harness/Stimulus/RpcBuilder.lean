import Tc8Harness.Dissect.Framing
import Tc8Harness.Someip.Wire

/-!
# RPC messages packed into one datagram

`buildMethodRequest` and `buildBundledMethodRequests` of `src/stimulus/someip_rpc_builder.cpp`, and
what the dissector makes of their bytes. `parseSomeIpHeader_eq` ties the dissector's parser to the
shared header reader, so a built message parses back as itself whatever follows it
(`parse_buildMethodRequest`), and the walk over a bundle gives the messages one by one.
`deliver_bundle_and_feed` adds the numbering of the UDP path and compares it with the TCP path.
-/

namespace Tc8Harness.Stimulus

open Wire Someip Dissect StreamFraming
open SomeipTp (Buffer)

/-! ## The builder -/

structure SomeIpRpcMessage where
  serviceId : UInt16 := 0xF4E7
  methodId : UInt16 := 0x0008
  clientId : UInt16 := 0x0000
  sessionId : UInt16 := 0x0001
  protocolVersion : UInt8 := 0x01
  interfaceVersion : UInt8 := 0x01
  messageType : MessageType := .REQUEST
  returnCode : ReturnCode := .E_OK
  payload : List UInt8 := []
  lengthOverride : Option UInt32 := none
  messageTypeOverride : Option UInt8 := none
  returnCodeOverride : Option UInt8 := none
  deriving DecidableEq, Repr

/-- The header `buildMethodRequest` fills in. -/
def SomeIpRpcMessage.header (t : SomeIpRpcMessage) : Header :=
  { serviceId := t.serviceId
    methodId := t.methodId
    length := t.lengthOverride.getD (UInt32.ofNat (8 + t.payload.length))
    clientId := t.clientId
    sessionId := t.sessionId
    protocolVersion := t.protocolVersion
    interfaceVersion := t.interfaceVersion
    messageType := t.messageTypeOverride.getD t.messageType.toUInt8
    returnCode := t.returnCodeOverride.getD t.returnCode.toUInt8 }

def buildMethodRequest (t : SomeIpRpcMessage) : List UInt8 := appendHeader t.header ++ t.payload

def buildBundledMethodRequests (targets : List SomeIpRpcMessage) : List UInt8 :=
  targets.flatMap buildMethodRequest

theorem length_buildMethodRequest (t : SomeIpRpcMessage) :
    (buildMethodRequest t).length = 16 + t.payload.length := by
  simp [buildMethodRequest]

/-! ## The dissector's parser and the shared header reader -/

/-- The dissector's view of a header. -/
def dissectedHeader (h : Header) : SomeIpHeader :=
  { serviceId := h.serviceId
    methodId := h.methodId
    length := h.length
    clientId := h.clientId
    sessionId := h.sessionId
    protocolVersion := h.protocolVersion
    interfaceVersion := h.interfaceVersion
    messageType := h.messageType
    returnCode := h.returnCode }

/-- The dissector's parser is `parseHeader` and three checks. -/
theorem parseSomeIpHeader_eq {data : List UInt8} {h : Header}
    (hp : parseHeader (.bytes data) = some h) :
    parseSomeIpHeader data =
      if h.length.toNat < 8 then none
      else if data.length < h.length.toNat + 8 then none
      else if h.protocolVersion ≠ 1 then none
      else some (dissectedHeader h, h.length.toNat + 8) := by
  simp only [parseHeader, Option.ite_none_left_eq_some, Option.some.injEq] at hp
  obtain ⟨hlen, rfl⟩ := hp
  have hlong : ¬ data.length < 8 := by
    simp only [kHeaderSize] at hlen
    omega
  rw [parseSomeIpHeader, if_neg hlong]
  rfl

/-- What the dissector makes of a built message. -/
def SomeIpRpcMessage.dissected (t : SomeIpRpcMessage) : SomeIpHeader × List UInt8 :=
  (dissectedHeader t.header, t.payload)

/-- A built message parses back as itself, whatever follows it. -/
theorem parse_buildMethodRequest {t : SomeIpRpcMessage} (hlen : t.lengthOverride = none)
    (hver : t.protocolVersion = 1) (hsize : 8 + t.payload.length < 2 ^ 32) (rest : List UInt8) :
    someIpParser.parse (buildMethodRequest t ++ rest) =
      some (t.dissected, (buildMethodRequest t).length) := by
  have hhdr : parseHeader (.bytes (buildMethodRequest t ++ rest)) = some t.header := by
    rw [buildMethodRequest, List.append_assoc]
    exact parseHeader_appendHeader _ _
  have hfield : t.header.length.toNat = 8 + t.payload.length := by
    simp only [SomeIpRpcMessage.header, hlen, Option.getD_none]
    exact UInt32.toNat_ofNat_of_lt' hsize
  have htotal : t.header.length.toNat + 8 = (buildMethodRequest t).length := by
    rw [hfield, length_buildMethodRequest]
    omega
  have hshort : ¬ (buildMethodRequest t ++ rest).length < (buildMethodRequest t).length := by
    rw [List.length_append]
    omega
  have hpayload : ((buildMethodRequest t ++ rest).take (buildMethodRequest t).length).drop
      SomeIpHeader.kHeaderSize = t.payload := by
    rw [List.take_left, buildMethodRequest]
    exact List.drop_left' (length_appendHeader _)
  have hparse : parseSomeIpHeader (buildMethodRequest t ++ rest) =
      some (dissectedHeader t.header, (buildMethodRequest t).length) := by
    have hver' : t.header.protocolVersion = 1 := hver
    rw [parseSomeIpHeader_eq hhdr, htotal, if_neg (by omega), if_neg hshort,
      if_neg (not_not.2 hver')]
  simp only [someIpParser, hparse, Option.map_some, hpayload, SomeIpRpcMessage.dissected]

/-- The walk over a bundle. -/
theorem frames_buildBundledMethodRequests {targets : List SomeIpRpcMessage}
    (hlen : ∀ t ∈ targets, t.lengthOverride = none) (hver : ∀ t ∈ targets, t.protocolVersion = 1)
    (hsize : ∀ t ∈ targets, 8 + t.payload.length < 2 ^ 32) :
    someIpParser.frames (buildBundledMethodRequests targets) =
      (targets.map SomeIpRpcMessage.dissected, []) :=
  someIpParser.frames_flatMap fun t ht rest =>
    parse_buildMethodRequest (hlen t ht) (hver t ht) (hsize t ht) rest

/-! ## The two delivery paths -/

/-- `deliver` numbers the messages of the walk; the count is a `uint16`. -/
theorem deliverFrames_eq (t : Transport) (data : List UInt8)
    (h : (someIpParser.frames data).1.length < 65536) :
    deliverFrames t data = (someIpParser.frames data).1.mapIdx fun i m =>
      { makeFrame t m.1 m.2 with
        datagramMsgIndex := i
        datagramMsgCount := (someIpParser.frames data).1.length } := by
  unfold deliverFrames
  rw [splitMessages_frames]
  have hcount : ((someIpParser.frames data).1.map fun m => makeFrame t m.1 m.2).length % 65536 =
      (someIpParser.frames data).1.length := by
    rw [List.length_map, Nat.mod_eq_of_lt h]
  simp only [hcount]
  rw [List.take_of_length_le (by rw [List.length_map])]
  apply List.ext_getElem?
  intro i
  rw [List.getElem?_mapIdx, List.getElem?_mapIdx, List.getElem?_map, Option.map_map]
  rfl

/-- A frame without its place in a datagram, as the TCP path emits it. -/
def ungrouped (f : SomeIpFrame) : SomeIpFrame :=
  { f with datagramMsgIndex := 0, datagramMsgCount := 0 }

/-- `feed` on an empty residual walks the same bytes. -/
theorem feed_empty (t : Transport) (data : List UInt8) :
    (Residuals.feed ∅ t data).1 =
      (someIpParser.frames data).1.map fun m => makeFrame t m.1 m.2 := by
  have hnone : (∅ : Residuals).of t = [] := by simp [Residuals.of]
  rw [Residuals.feed, feedFrames_eq, hnone, List.nil_append]

/-- The frame the `i`-th of `count` messages of a datagram is delivered as. -/
def SomeIpRpcMessage.frame (t : Transport) (count i : Nat) (m : SomeIpRpcMessage) : SomeIpFrame :=
  { srcIp := t.srcIp
    dstIp := t.dstIp
    srcPort := t.srcPort
    dstPort := t.dstPort
    isTcp := t.proto == .tcp
    header :=
      { serviceId := m.serviceId
        methodId := m.methodId
        length := UInt32.ofNat (8 + m.payload.length)
        clientId := m.clientId
        sessionId := m.sessionId
        protocolVersion := 1
        interfaceVersion := m.interfaceVersion
        messageType := m.messageTypeOverride.getD m.messageType.toUInt8
        returnCode := m.returnCodeOverride.getD m.returnCode.toUInt8 }
    payload := m.payload
    observedTsUs := t.observedTsUs
    datagramMsgIndex := i
    datagramMsgCount := count }

theorem deliver_bundle (t : Transport) {targets : List SomeIpRpcMessage}
    (hlen : ∀ m ∈ targets, m.lengthOverride = none) (hver : ∀ m ∈ targets, m.protocolVersion = 1)
    (hfit : (buildBundledMethodRequests targets).length ≤ 65507) :
    deliverFrames t (buildBundledMethodRequests targets) =
      targets.mapIdx fun i m => m.frame t targets.length i := by
  have htotal : ((targets.map fun m => 16 + m.payload.length)).sum ≤ 65507 := by
    rw [buildBundledMethodRequests, List.length_flatMap] at hfit
    simpa only [length_buildMethodRequest] using hfit
  have hsize : ∀ m ∈ targets, 8 + m.payload.length < 2 ^ 32 := by
    intro m hm
    have := List.single_le_sum (fun _ _ => Nat.zero_le _) _
      (List.mem_map_of_mem (f := fun m : SomeIpRpcMessage => 16 + m.payload.length) hm)
    omega
  have hcount : targets.length * 16 ≤ 65507 := by
    refine le_trans ?_ htotal
    rw [← List.length_map (f := fun m : SomeIpRpcMessage => 16 + m.payload.length), ← smul_eq_mul]
    apply List.card_nsmul_le_sum
    intro n hn
    obtain ⟨m, -, rfl⟩ := List.mem_map.1 hn
    omega
  have hwalk := frames_buildBundledMethodRequests hlen hver hsize
  rw [deliverFrames_eq t _ (by rw [hwalk, List.length_map]; omega), hwalk]
  apply List.ext_getElem?
  intro i
  rw [List.getElem?_mapIdx, List.getElem?_mapIdx, List.getElem?_map, Option.map_map,
    List.length_map]
  cases hi : targets[i]? with
  | none => rfl
  | some m =>
    have hm : m ∈ targets := List.mem_of_getElem? hi
    simp only [Option.map_some, Function.comp_apply, SomeIpRpcMessage.dissected, dissectedHeader,
      SomeIpRpcMessage.header, hlen m hm, hver m hm, Option.getD_none, makeFrame,
      SomeIpRpcMessage.frame]

/-- Up to their numbering the two paths emit the same messages, as long as the datagram's count fits
its 16 bits. -/
theorem ungrouped_deliverFrames (t : Transport) {data : List UInt8}
    (h : (someIpParser.frames data).1.length < 65536) :
    (deliverFrames t data).map ungrouped = (Residuals.feed ∅ t data).1 := by
  rw [deliverFrames_eq t data h, feed_empty]
  apply List.ext_getElem?
  intro i
  rw [List.getElem?_map, List.getElem?_mapIdx, Option.map_map, List.getElem?_map]
  rfl

/-- **Packed messages are delivered one by one**, numbered from 0 with the count of them; and on any
byte string of at most 65535 messages the UDP path emits the messages the TCP path emits on an empty
residual. -/
theorem deliver_bundle_and_feed (t : Transport) :
    (∀ targets : List SomeIpRpcMessage, (∀ m ∈ targets, m.lengthOverride = none) →
      (∀ m ∈ targets, m.protocolVersion = 1) →
      (buildBundledMethodRequests targets).length ≤ 65507 →
      deliverFrames t (buildBundledMethodRequests targets) =
        targets.mapIdx fun i m => m.frame t targets.length i) ∧
    (∀ data : List UInt8, (Residuals.feed ∅ t data).1.length ≤ 65535 →
      (deliverFrames t data).map ungrouped = (Residuals.feed ∅ t data).1) := by
  refine ⟨fun targets hlen hver hfit => deliver_bundle t hlen hver hfit, fun data hcount => ?_⟩
  rw [feed_empty, List.length_map] at hcount
  exact ungrouped_deliverFrames t (by omega)

/-- A request without arguments and one whose payload is itself a whole message. -/
theorem deliver_bundle_and_feed_nested :
    let t : Transport := ⟨.udp, 0xAC100001, 0xAC100002, 30491, 30502, 0⟩
    let inner : SomeIpRpcMessage := { payload := buildMethodRequest {} }
    let data := buildBundledMethodRequests [{}, inner]
    data.length ≤ 65507 ∧
      deliverFrames t data = [SomeIpRpcMessage.frame t 2 0 {}, inner.frame t 2 1] ∧
      (deliverFrames t data).map ungrouped = (Residuals.feed ∅ t data).1 := by
  intro t inner data
  have hfit : data.length ≤ 65507 := by decide +kernel
  obtain ⟨hdeliver, hfeed⟩ := deliver_bundle_and_feed t
  refine ⟨hfit, ?_, ?_⟩
  · exact hdeliver [{}, inner] (by decide +kernel) (by decide +kernel) hfit
  · exact hfeed data (by decide +kernel)

theorem length_deliverFrames (t : Transport) (data : List UInt8) :
    (deliverFrames t data).length = (someIpParser.frames data).1.length % 65536 := by
  unfold deliverFrames
  rw [splitMessages_frames, List.length_mapIdx, List.length_take, List.length_map]
  exact Nat.min_eq_left (Nat.mod_le _ _)

private theorem length_frames_replicate (n : Nat) :
    (someIpParser.frames (buildBundledMethodRequests (List.replicate n {}))).1.length = n := by
  have hall : ∀ m ∈ List.replicate n ({} : SomeIpRpcMessage), m = {} :=
    fun m hm => List.eq_of_mem_replicate hm
  rw [frames_buildBundledMethodRequests, List.length_map, List.length_replicate]
  · intro m hm
    rw [hall m hm]
  · intro m hm
    rw [hall m hm]
  · intro m hm
    rw [hall m hm]
    decide

/-- At 65536 messages the count wraps to 0 and `deliver` emits nothing, where `feed` emits them
all. -/
theorem deliver_wraps_at_65536 :
    let t : Transport := ⟨.udp, 0xAC100001, 0xAC100002, 30491, 30502, 0⟩
    let data := buildBundledMethodRequests (List.replicate 65536 {})
    (deliverFrames t data).map ungrouped ≠ (Residuals.feed ∅ t data).1 := by
  intro t data heq
  have hlen := congrArg List.length heq
  rw [List.length_map, length_deliverFrames, feed_empty, List.length_map,
    length_frames_replicate 65536] at hlen
  exact absurd hlen (by decide)

end Tc8Harness.Stimulus
