import Tc8Harness.UpperTester.Dispatch
import Tc8Harness.UpperTester.SocketRuns

/-!
# The Upper Tester round trip

`Answer.report` is what the client is to learn of an answer. `utServerLoop_build`: a server that is sent a
built request performs it and sends the answer's frame. `decodeResponse_frame`: the client reads the report
back out of that frame, given that the answer is one of its opcode's and a received payload is no longer
than the request allowed; `perform_for` has these from the loops. There is an answer to every request but an
open that takes an id which is in use (`perform_answers`).
-/

namespace Tc8Harness.UpperTester

open BigEndian Wire Someip Hoare
open Testability (Endpoint)

/-- The response as it is sent. -/
def Answer.frame (answer : Answer) (opcode reqId : UInt8) : List UInt8 :=
  [opcode ||| kResponseBit, reqId, answer.reply.1] ++ answer.reply.2

/-- The head of a frame: whose response it is, and the status. -/
def headOf (opcode reqId status : UInt8) : UtResponse :=
  { present := true, opcode := opcode ||| kResponseBit, requestOpcode := opcode, reqId,
    isResponse := true, hasStatus := true, status }

/-- The response as it is to be read: whose it is, its status, and the values of its opcode. -/
def Answer.report (answer : Answer) (opcode reqId : UInt8) : UtResponse :=
  let r := headOf opcode reqId answer.reply.1
  match answer with
  | .receipt none => { r with receivedValid := true, received := 0 }
  | .receipt (some rec) =>
    { r with receivedValid := true, received := 1, recvTrailerValid := true, recvSrcIp := rec.srcIp,
             recvSrcPort := rec.srcPort, recvPayloadLen := UInt16.ofNat rec.payload.length,
             recvPayload := rec.payload.take kMaxPayload }
  | .established yes => { r with establishedValid := true, established := if yes then 1 else 0 }
  | .received bytes stop =>
    { r with recvLenValid := true, recvLen := UInt16.ofNat bytes.length, recvEnd := stop }
  | .urgent bytes =>
    { r with recvLenValid := true, recvLen := UInt16.ofNat bytes.length, recvEnd := kRecvEndNone }
  | .info tcp =>
    { r with tcpInfoValid := true, tcpState := tcp.state, tcpRtoUs := tcp.rtoUs,
             tcpRetransmits := tcp.retransmits, tcpUnacked := tcp.unacked }
  | .ports count => { r with createCountValid := true, createActualCount := count }
  | .llAddress addrBe => { r with llAddressValid := true, llAddress := addrBe }
  | .dhcpLease addrBe => { r with dhcpLeaseValid := true, dhcpLease := addrBe }
  | _ => r

/-! ## Decoding -/

/-- The answers an opcode has. -/
def Answer.For (opcode : UInt8) : Answer → Prop
  | .done => True
  | .failed _ => True
  | .receipt _ => opcode = opGetReceivedUdp
  | .socket _ => opcode = opOpenTcpSocket
  | .established _ => opcode = opQueryTcpEstablished
  | .received bytes _ => opcode = opReceiveTcpData ∧ bytes.length ≤ kMaxPayload
  | .urgent bytes => opcode = opReceiveTcpDataOob ∧ bytes.length ≤ kMaxPayload
  | .info _ => opcode = opQueryTcpInfo
  | .ports _ => opcode = opCreateUdpReceivePorts
  | .maxOpcode _ => opcode = opPing
  | .capabilities _ => opcode = opQueryCapabilities
  | .llAddress _ => opcode = opQueryLLAddress
  | .dhcpLease _ => opcode = opQueryDhcpLease
  | .notPerformed _ => opcode = opConditionArpCache

/-- The bit that tells a response from a request is none of an opcode's. -/
theorem Request.opcode_bits (r : Request) :
    r.opcode &&& kResponseBit = 0 ∧ ((r.opcode ||| kResponseBit) &&& kResponseBit != 0) = true ∧
      (r.opcode ||| kResponseBit) &&& kRequestOpcodeMask = r.opcode := by
  cases r with
  | setFlavor target _ =>
    rw [Request.opcode]
    cases target <;> decide
  | _ =>
    rw [Request.opcode]
    decide

theorem decodeResponse_head (r : Request) (reqId status : UInt8) (body : List UInt8) :
    decodeResponse ([r.opcode ||| kResponseBit, reqId, status] ++ body) =
      (headOf r.opcode reqId status).decodeResponseBody body := by
  obtain ⟨-, hresponse, hrequest⟩ := r.opcode_bits
  obtain ⟨p, hp⟩ : ∃ p, p = [r.opcode ||| kResponseBit, reqId, status] ++ body := ⟨_, rfl⟩
  have hlen : 3 ≤ p.length := by rw [hp]; simp
  have hopcode : p.getD 0 0 = r.opcode ||| kResponseBit := by rw [hp]; rfl
  have hreqId : p.getD 1 0 = reqId := by rw [hp]; rfl
  have hstatus : p.getD 2 0 = status := by rw [hp]; rfl
  have hbody : p.drop 3 = body := by rw [hp]; rfl
  rw [← hp, decodeResponse, if_neg (by omega), hopcode, hreqId, hstatus, hbody]
  dsimp only
  rw [hresponse, hrequest, if_neg (by simp), if_neg (by omega)]
  rfl

theorem decodeResponseBody_nil (r : UtResponse) : r.decodeResponseBody [] = r := by
  unfold UtResponse.decodeResponseBody UtResponse.decodeReceivedUdp UtResponse.decodeReceiveTcp
    UtResponse.decodeTcpInfo
  simp

theorem decodeResponse_receipt (reqId : UInt8) (rec : ReceiveRecord) :
    (headOf opGetReceivedUdp reqId kStatusOk).decodeResponseBody (Answer.receipt (some rec)).reply.2 =
      (Answer.receipt (some rec)).report opGetReceivedUdp reqId := by
  obtain ⟨body, hbody⟩ : ∃ body, body = (Answer.receipt (some rec)).reply.2 := ⟨_, rfl⟩
  have hsplit : body = [0x01] ++ (bytes32 rec.srcIp ++ (putBe16 rec.srcPort ++
      (putBe16 (UInt16.ofNat rec.payload.length) ++ rec.payload.take kMaxPayload))) := hbody
  have hlen : 9 ≤ body.length := by
    rw [hsplit]
    simp
    omega
  have hhead : body.getD 0 0 = 1 := by rw [hsplit]; rfl
  have hip : copy32 body 1 = rec.srcIp := by
    rw [hsplit, copy32_append_right (by simp), List.length_singleton, copy32_bytes32]
  have hport : readBe16 body 5 = rec.srcPort := by
    rw [hsplit, readBe16_skip (by simp), readBe16_skip (by simp), List.length_singleton,
      length_bytes32, readBe16_here]
  have hplen : readBe16 body 7 = UInt16.ofNat rec.payload.length := by
    rw [hsplit, readBe16_skip (by simp), readBe16_skip (by simp), readBe16_skip (by simp),
      List.length_singleton, length_bytes32, length_putBe16, readBe16_here]
  have hpayload : body.drop 9 = rec.payload.take kMaxPayload := by
    rw [hsplit, ← List.append_assoc, ← List.append_assoc, ← List.append_assoc,
      List.drop_left' (by simp)]
  rw [← hbody]
  change (headOf opGetReceivedUdp reqId kStatusOk).decodeReceivedUdp body = _
  rw [UtResponse.decodeReceivedUdp, if_pos (by omega), hhead, hip, hport, hplen, hpayload]
  dsimp only
  rw [if_pos ⟨rfl, hlen⟩]
  rfl

/-- The length of a payload is its length field. -/
theorem toNat_length_of_le {bytes : List UInt8} (hlen : bytes.length ≤ kMaxPayload) :
    (UInt16.ofNat bytes.length).toNat = bytes.length := by
  unfold kMaxPayload at hlen
  rw [UInt16.toNat_ofNat']
  omega

theorem decodeReceiveTcp_stop (r : UtResponse) {bytes : List UInt8} (stop : UInt8)
    (hlen : bytes.length ≤ kMaxPayload) :
    r.decodeReceiveTcp (putBe16 (UInt16.ofNat bytes.length) ++ (bytes ++ [stop])) =
      { r with recvLenValid := true, recvLen := UInt16.ofNat bytes.length, recvEnd := stop } := by
  unfold UtResponse.decodeReceiveTcp
  rw [if_pos (by simp), readBe16_here]
  dsimp only
  rw [toNat_length_of_le hlen, if_pos (by simp), getD_append_right (by simp), length_putBe16,
    Nat.add_sub_cancel_left, getD_append_right (Nat.le_refl _), Nat.sub_self]
  rfl

/-- Without a byte behind the received ones nothing is said about the stream's end. -/
theorem decodeReceiveTcp_urgent (r : UtResponse) {bytes : List UInt8} (hlen : bytes.length ≤ kMaxPayload) :
    r.decodeReceiveTcp (putBe16 (UInt16.ofNat bytes.length) ++ bytes) =
      { r with recvLenValid := true, recvLen := UInt16.ofNat bytes.length } := by
  unfold UtResponse.decodeReceiveTcp
  rw [if_pos (by simp), readBe16_here]
  dsimp only
  rw [toNat_length_of_le hlen, if_neg (by simp)]

theorem decodeTcpInfo_info (r : UtResponse) (tcp : TcpInfo) :
    r.decodeTcpInfo (Answer.info tcp).reply.2 =
      { r with tcpInfoValid := true, tcpState := tcp.state, tcpRtoUs := tcp.rtoUs,
               tcpRetransmits := tcp.retransmits, tcpUnacked := tcp.unacked } := by
  obtain ⟨body, hbody⟩ : ∃ body, body = (Answer.info tcp).reply.2 := ⟨_, rfl⟩
  have hsplit : body = [tcp.state] ++ (putBe32 tcp.rtoUs ++ ([tcp.retransmits] ++
    putBe32 tcp.unacked)) := hbody
  have hlen : body.length = 10 := by rw [hsplit]; simp
  have hstate : body.getD 0 0 = tcp.state := by rw [hsplit]; rfl
  have hrto : readBe32 body 1 = tcp.rtoUs := by
    rw [hsplit, readBe32_skip (by simp), List.length_singleton, readBe32_here]
  have hretransmits : body.getD 5 0 = tcp.retransmits := by
    rw [hsplit, getD_append_right (by simp), getD_append_right (by simp), List.length_singleton,
      length_putBe32]
    rfl
  have hunacked : readBe32 body 6 = tcp.unacked := by
    rw [hsplit, readBe32_skip (by simp), readBe32_skip (by simp), readBe32_skip (by simp),
      List.length_singleton, length_putBe32, List.length_singleton, readBe32_only]
  rw [← hbody, UtResponse.decodeTcpInfo, if_pos (by omega), hstate, hrto, hretransmits, hunacked]

theorem decodeResponseBody_llAddress {r : UtResponse} (hr : r.requestOpcode = opQueryLLAddress)
    (addrBe : UInt32) : r.decodeResponseBody (bytes32 addrBe) =
      { r with llAddressValid := true, llAddress := addrBe } := by
  unfold UtResponse.decodeResponseBody
  rw [hr, if_neg (by decide), if_neg (by decide), if_neg (by decide), if_pos rfl, if_pos (by simp),
    copy32_only]

theorem decodeResponseBody_dhcpLease {r : UtResponse} (hr : r.requestOpcode = opQueryDhcpLease)
    (addrBe : UInt32) : r.decodeResponseBody (bytes32 addrBe) =
      { r with dhcpLeaseValid := true, dhcpLease := addrBe } := by
  unfold UtResponse.decodeResponseBody
  rw [hr, if_neg (by decide), if_neg (by decide), if_neg (by decide), if_neg (by decide), if_pos rfl,
    if_pos (by simp), copy32_only]

/-- **The client reads the report back.** -/
theorem decodeResponse_frame (r : Request) (reqId : UInt8) {answer : Answer} (hfor : answer.For r.opcode) :
    decodeResponse (answer.frame r.opcode reqId) = answer.report r.opcode reqId := by
  rw [Answer.frame, decodeResponse_head]
  cases answer with
  | done => exact decodeResponseBody_nil _
  | failed status => exact decodeResponseBody_nil _
  | receipt rec =>
    change r.opcode = _ at hfor
    rw [hfor]
    cases rec with
    | none => rfl
    | some rec => exact decodeResponse_receipt reqId rec
  | socket sid =>
    change r.opcode = _ at hfor
    rw [hfor]
    rfl
  | established yes =>
    change r.opcode = _ at hfor
    rw [hfor]
    rfl
  | received bytes stop =>
    obtain ⟨hopcode, hlen⟩ := hfor
    rw [hopcode]
    exact decodeReceiveTcp_stop _ stop hlen
  | urgent bytes =>
    obtain ⟨hopcode, hlen⟩ := hfor
    rw [hopcode]
    exact decodeReceiveTcp_urgent _ hlen
  | info tcp =>
    change r.opcode = _ at hfor
    rw [hfor]
    exact decodeTcpInfo_info _ tcp
  | ports count =>
    change r.opcode = _ at hfor
    rw [hfor]
    rfl
  | maxOpcode opcode =>
    change r.opcode = _ at hfor
    rw [hfor]
    rfl
  | capabilities bitmap =>
    change r.opcode = _ at hfor
    rw [hfor]
    rfl
  | llAddress addrBe =>
    change r.opcode = _ at hfor
    rw [hfor]
    exact decodeResponseBody_llAddress rfl addrBe
  | dhcpLease addrBe =>
    change r.opcode = _ at hfor
    rw [hfor]
    exact decodeResponseBody_dhcpLease rfl addrBe
  | notPerformed op =>
    change r.opcode = _ at hfor
    rw [hfor]
    rfl

/-! ## Which answers there are -/

section Answers

variable {σ : Type} (env : Env σ) (ext : ExtEnv σ) (platform : Platform)

theorem answers_callExt {α : Type} (op : ExtOp α) : Answers (callExt ext op) :=
  fun _ _ => ⟨_, _, rfl, trivial⟩

/-! ### The operations -/

theorem answers_slotExists (sid : UInt8) : Answers (slotExists sid : UT σ Bool) :=
  always_get_bind fun _ => answers_pure _

theorem answers_slotConnFd (sid : UInt8) : Answers (slotConnFd sid : UT σ Int) :=
  always_get_bind fun _ => answers_pure _

theorem answers_triggerSendUdp (srcPort : UInt16) (dstIpBe : UInt32) (dstPort : UInt16)
    (payload : List UInt8) (srcIpOverrideBe : UInt32) :
    Answers (triggerSendUdp env srcPort dstIpBe dstPort payload srcIpOverrideBe) := by
  refine always_bind (answers_call env _) fun fd => always_ite (answers_pure _) ?_
  refine always_bind (answers_call env _) fun _ => always_bind (answers_call env _) fun _ => ?_
  refine always_get_bind fun s => always_bind (answers_call env _) fun bound => always_ite ?_ ?_
  · refine always_bind (answers_call env _) fun rc => ?_
    exact always_bind (answers_call env _) fun _ => answers_pure _
  · exact always_bind (answers_call env _) fun _ => answers_pure _

theorem answers_acceptorTurn (slot : TcpSlot) : Answers (acceptorTurn env slot) := by
  refine always_bind (answers_call env _) fun sr => always_ite (answers_pure _) ?_
  refine always_ite (answers_pure _) (always_bind (answers_call env _) fun conn => ?_)
  exact always_ite (answers_pure _) (answers_pure _)

theorem answers_tearDownSlot (sid : UInt8) (abort : Bool) : Answers (tearDownSlot env sid abort) := by
  refine always_get_bind fun s => ?_
  cases s.tcpSlots[sid]? with
  | none => exact answers_pure _
  | some slot =>
    refine always_bind (answers_modify _) fun _ => always_bind ?_ fun _ => always_bind ?_ fun slot' =>
      always_bind ?_ fun _ => always_bind ?_ fun _ => answers_pure _
    · exact always_ite (always_bind (answers_call env _) fun _ => answers_pure _) (answers_pure _)
    · refine always_ite (always_bind (answers_call env _) fun past => ?_) (answers_pure _)
      exact always_ite (answers_acceptorTurn env slot) (answers_pure _)
    · exact always_ite (always_ite (answers_call env _) (answers_call env _)) (answers_pure _)
    · exact always_ite (answers_call env _) (answers_pure _)

theorem answers_sendAll (fd : Int) (bytes : List UInt8) : Answers (sendAll env fd bytes) := by
  fun_induction sendAll env fd bytes with
  | case1 => exact answers_pure true
  | case2 byte bytes ih =>
    refine always_bind (answers_call env _) fun rc => ?_
    split
    · next hpos => exact ih rc hpos
    · exact answers_pure false

theorem answers_bindUdpReceivePorts (count : Nat) : Answers (bindUdpReceivePorts env count) := by
  induction count with
  | zero => exact answers_pure 0
  | succ count ih =>
    refine always_bind (answers_call env _) fun fd => always_ite (answers_pure _) ?_
    refine always_bind (answers_call env _) fun bound => always_ite ?_ ?_
    · exact always_bind (answers_modify _) fun _ => always_bind ih fun _ => answers_pure _
    · exact always_bind (answers_call env _) fun _ => answers_pure _

theorem answers_abortDhcpClients (iface : Nat) (macs : List (List UInt8)) :
    Answers (abortDhcpClients ext iface macs) := by
  induction macs generalizing iface with
  | nil => exact answers_pure _
  | cons mac macs ih => exact always_bind (answers_callExt ext _) fun _ => ih (iface + 1)

theorem answers_ageArpTable (seconds : Nat) : Answers (ageArpTable ext seconds) := by
  induction seconds with
  | zero => exact answers_pure _
  | succ seconds ih => exact always_bind (answers_callExt ext _) fun _ => ih

/-- The loop never reads more than it was asked for. -/
theorem receiveUntil_length (fd deadline : Int) (want : Nat) :
    Always (receiveUntil env fd deadline want) fun got => got.1.length ≤ want := by
  induction want using Nat.strong_induction_on with
  | _ want ih =>
    rw [receiveUntil]
    refine always_ite (always_pure (Nat.zero_le _)) (always_bind (answers_call env _) fun now => ?_)
    refine always_ite (always_pure (Nat.zero_le _)) (always_bind (answers_call env _) fun _ => ?_)
    refine always_bind (answers_call env _) fun got => ?_
    obtain ⟨bytes, stop⟩ := got
    dsimp only
    split
    · next hpos =>
      refine Ensures.bind (ih (want - bytes.1.length) (by omega)) fun more => ensures_pure fun s hmore => ?_
      have hbytes := bytes.2
      change (bytes.1 ++ more.1).length ≤ want
      rw [List.length_append]
      omega
    · exact always_pure (Nat.zero_le _)

theorem always_onSocket {sid : UInt8} {k : Int → UT σ Answer} {opcode : UInt8}
    (hk : ∀ fd, Always (k fd) (Answer.For opcode)) : Always (onSocket sid k) (Answer.For opcode) :=
  always_bind (answers_slotExists sid) fun _ => always_ite
    (always_bind (answers_slotConnFd sid) fun fd => hk fd) (always_pure trivial)

theorem orFailed_for (opcode status : UInt8) (ok : Bool) : (orFailed status ok).For opcode := by
  cases ok <;> exact trivial

theorem always_sendOnSocket (opcode sid : UInt8) (bytes : List UInt8) :
    Always (sendOnSocket env sid bytes) (Answer.For opcode) :=
  always_onSocket fun fd => always_ite
    (always_bind (answers_sendAll env fd bytes) fun ok => always_pure (orFailed_for opcode _ ok))
    (always_pure trivial)

theorem always_onPosix {k : String → List (List UInt8) → UT σ Answer} {opcode : UInt8}
    (hk : ∀ ifname clientMacs, Always (k ifname clientMacs) (Answer.For opcode)) :
    Always (onPosix platform k) (Answer.For opcode) := by
  cases platform with
  | posix ifname clientMacs => exact hk ifname clientMacs
  | lwip ifname => exact always_pure trivial

theorem always_onLwip {k : UT σ Answer} {opcode : UInt8} (hk : Always k (Answer.For opcode)) :
    Always (onLwip platform k) (Answer.For opcode) := by
  cases platform with
  | posix ifname clientMacs => exact always_pure trivial
  | lwip ifname => exact hk

theorem always_armFlavor (opcode max : UInt8) {arm : UInt8 → UT σ Unit} (flavor : UInt8)
    (harm : Answers (arm flavor)) : Always (armFlavor max arm flavor) (Answer.For opcode) :=
  always_ite (always_pure trivial) (always_bind harm fun _ => always_pure trivial)

theorem ofOpStatus_for (op : OpStatus) : (ofOpStatus op).For opConditionArpCache := by
  cases op with
  | Ok => exact trivial
  | _ => exact rfl

/-- The requests for a TCP socket. -/
def Request.Opens : Request → Prop
  | .openTcpPassive _ => True
  | .openTcpActive _ _ _ => True
  | _ => False

/-- Every request but those for a socket is answered, with a value of its opcode. -/
theorem always_perform (r : Request) (hopens : ¬ r.Opens) :
    Always (perform env ext platform r) (Answer.For r.opcode) := by
  cases r with
  | openTcpPassive localPort => exact absurd trivial hopens
  | openTcpActive localPort remoteIpBe remotePort => exact absurd trivial hopens
  | getReceivedUdp listenPort expectedDstIpBe =>
    exact always_bind (always_get_bind fun _ => answers_pure _) fun _ => always_pure rfl
  | triggerSendUdp srcPort dstIpBe dstPort payload srcIpOverrideBe =>
    exact always_bind (answers_triggerSendUdp env _ _ _ _ _) fun ok => always_pure (orFailed_for _ _ ok)
  | closeTcp socketId =>
    exact always_bind (answers_tearDownSlot env _ _) fun ok => always_pure (orFailed_for _ _ ok)
  | abortTcp socketId =>
    exact always_bind (answers_tearDownSlot env _ _) fun ok => always_pure (orFailed_for _ _ ok)
  | queryTcpEstablished socketId =>
    exact always_onSocket fun _ => always_ite
      (always_bind (answers_call env _) fun _ => always_pure rfl) (always_pure rfl)
  | queryTcpInfo socketId =>
    refine always_onSocket fun _ => always_ite (always_pure trivial)
      (always_bind (answers_call env _) fun info => always_pure ?_)
    cases info with
    | none => exact trivial
    | some info => exact rfl
  | sendTcpData socketId payload => exact always_sendOnSocket env _ socketId _
  | sendTcpDataPattern socketId pattern totalLen => exact always_sendOnSocket env _ socketId _
  | receiveTcpData socketId expectedLen timeoutMs =>
    refine always_onSocket fun fd => always_ite (always_bind (answers_call env _) fun now => ?_)
      (always_pure ⟨rfl, Nat.zero_le _⟩)
    refine Ensures.bind (receiveUntil_length env fd _ _) fun got => ensures_pure fun s hlen => ?_
    exact ⟨rfl, hlen.trans (Nat.min_le_right _ _)⟩
  | receiveTcpDataOob socketId expectedLen timeoutMs =>
    refine always_onSocket fun fd => always_ite
      (always_bind (answers_call env _) fun bytes => always_pure ?_) (always_pure ⟨rfl, Nat.zero_le _⟩)
    exact ⟨rfl, bytes.2.trans (Nat.min_le_right _ _)⟩
  | shutdownTcpWr socketId =>
    exact always_bind (answers_slotConnFd socketId) fun _ => always_ite
      (always_bind (answers_call env _) fun ok => always_pure (orFailed_for _ _ ok)) (always_pure trivial)
  | createUdpReceivePorts count =>
    refine always_bind (always_bind (answers_bindUdpReceivePorts env _) fun _ => ?_) fun _ =>
      always_pure rfl
    exact always_get_bind fun _ => answers_pure _
  | ping => exact always_get_bind fun _ => always_pure rfl
  | queryCapabilities => exact always_get_bind fun _ => always_pure rfl
  | startLLAutoconf params =>
    exact always_onPosix platform fun _ _ => always_bind (answers_callExt ext _) fun _ =>
      always_pure trivial
  | startLLAutoconfBuggy params flavor =>
    exact always_onPosix platform fun _ _ => always_bind (answers_callExt ext _) fun _ =>
      always_pure trivial
  | queryLLAddress =>
    exact always_onPosix platform fun _ _ => always_bind (answers_callExt ext _) fun _ => always_pure rfl
  | abortLLAutoconf =>
    exact always_onPosix platform fun _ _ => always_bind (answers_callExt ext _) fun _ =>
      always_pure trivial
  | startDhcpClient params ifaceIndex flavor =>
    exact always_onPosix platform fun _ _ => always_ite (always_pure trivial)
      (always_bind (answers_callExt ext _) fun _ => always_pure trivial)
  | queryDhcpLease =>
    exact always_onPosix platform fun _ _ => always_ite (always_pure rfl)
      (always_bind (answers_callExt ext _) fun _ => always_pure rfl)
  | abortDhcpClient =>
    exact always_onPosix platform fun _ _ => always_bind (answers_abortDhcpClients ext _ _) fun _ =>
      always_pure trivial
  | arpAddStatic entryIpBe entryMac =>
    exact always_bind (answers_callExt ext _) fun op => always_pure (ofOpStatus_for op)
  | arpRemoveStatic entryIpBe =>
    exact always_bind (answers_callExt ext _) fun op => always_pure (ofOpStatus_for op)
  | conditionArpCache action param =>
    cases platform with
    | posix ifname clientMacs => exact always_pure trivial
    | lwip ifname =>
      refine always_ite (always_bind (answers_callExt ext _) fun _ => always_pure trivial) ?_
      exact always_ite (always_bind (answers_ageArpTable ext _) fun _ => always_pure trivial)
        (always_pure trivial)
  | setFlavor target flavor =>
    cases target with
    | egress => exact always_onLwip platform (always_armFlavor _ _ flavor (answers_callExt ext _))
    | ingress => exact always_onLwip platform (always_armFlavor _ _ flavor (answers_callExt ext _))
    | app => exact always_onLwip platform (always_armFlavor _ _ flavor (answers_modify _))
    | ets =>
      exact always_onPosix platform fun _ _ => always_armFlavor _ _ flavor (answers_callExt ext _)

/-! ### Opens -/

/-- The next id names no slot. -/
def NextFree (s : Server σ) : Prop := s.tcpSlots.contains s.nextTcpSocketId = false

theorem call_nextFree {α : Type} (op : Op α) : Ensures NextFree (call env op) fun _ => NextFree :=
  ensures_call fun _ hs => hs

theorem boundSocket_nextFree (addrBe : UInt32) (localPort : UInt16) :
    Ensures NextFree (boundSocket env addrBe localPort) fun _ => NextFree := by
  refine (call_nextFree env _).bind fun fd => ?_
  refine ensures_ite (fun _ => ensures_pure fun s hs => hs) fun _ => ?_
  refine (call_nextFree env _).bind fun _ => ?_
  refine (call_nextFree env _).bind fun bound => ?_
  refine ensures_ite (fun _ => ensures_pure fun s hs => hs) fun _ => ?_
  exact (call_nextFree env _).bind fun _ => ensures_pure fun s hs => hs

theorem passiveSocket_nextFree (localPort : UInt16) :
    Ensures NextFree (passiveSocket env localPort) fun _ => NextFree := by
  refine (boundSocket_nextFree env 0 localPort).bind fun made => ?_
  cases made with
  | none => exact ensures_pure fun s hs => hs
  | some fd =>
    refine (call_nextFree env _).bind fun listens => ?_
    refine ensures_ite (fun _ => ensures_pure fun s hs => hs) fun _ => ?_
    exact (call_nextFree env _).bind fun _ => ensures_pure fun s hs => hs

theorem activeSocket_nextFree (localPort : UInt16) :
    Ensures NextFree (activeSocket env localPort) fun _ => NextFree :=
  ensures_get_bind fun s => (boundSocket_nextFree env s.ifaceIpBe localPort).pre fun _ h => h.2

/-- A slot is emplaced under an id that is free. -/
theorem emplaceSlot_answers (slot : TcpSlot) (fd : Int) :
    Ensures NextFree (emplaceSlot slot fd : UT σ UInt8) fun _ _ => True := by
  intro s hs
  unfold emplaceSlot
  rw [NextFree] at hs
  simp only [StateT.run, hs]
  exact ⟨_, _, rfl, trivial⟩

theorem openTcpPassive_answers (localPort : UInt16) :
    Ensures NextFree (openTcpPassive env localPort) fun _ _ => True := by
  refine (passiveSocket_nextFree env localPort).bind fun made => ?_
  cases made with
  | none => exact ensures_pure fun _ _ => trivial
  | some fd => exact (emplaceSlot_answers _ fd).map

theorem openTcpActive_answers (localPort : UInt16) (remoteIpBe : UInt32) (remotePort : UInt16) :
    Ensures NextFree (openTcpActive env localPort remoteIpBe remotePort) fun _ _ => True := by
  refine (activeSocket_nextFree env localPort).bind fun made => ?_
  cases made with
  | none => exact ensures_pure fun _ _ => trivial
  | some fd => exact (emplaceSlot_answers _ fd).map

/-- **Every request is answered**, an open if the next id is free. -/
theorem perform_answers (r : Request) (s : Server σ) (hfree : r.Opens → NextFree s) :
    ∃ answer t, (perform env ext platform r).run s = some (answer, t) := by
  by_cases hopens : r.Opens
  · have hanswers : Ensures NextFree (perform env ext platform r) fun _ _ => True := by
      cases r with
      | openTcpPassive localPort =>
        exact (openTcpPassive_answers env localPort).bind fun _ => ensures_pure fun _ _ => trivial
      | openTcpActive localPort remoteIpBe remotePort =>
        exact (openTcpActive_answers env localPort remoteIpBe remotePort).bind fun _ =>
          ensures_pure fun _ _ => trivial
      | _ => exact absurd hopens id
    obtain ⟨answer, t, hrun, -⟩ := hanswers s (hfree hopens)
    exact ⟨answer, t, hrun⟩
  · obtain ⟨answer, t, hrun, -⟩ := always_perform env ext platform r hopens s trivial
    exact ⟨answer, t, hrun⟩

/-- An open that ends answers with the socket it opened, or with its failure. -/
theorem leaves_opened (m : UT σ (Option UInt8)) (status : UInt8) :
    Leaves (fun _ => True) (do return (← m).elim (.failed status) .socket)
      fun a _ => Answer.For opOpenTcpSocket a := by
  refine Leaves.bind (Q := fun _ _ => True) (fun _ _ _ _ _ => trivial) fun sid => leaves_pure ?_
  cases sid with
  | none => exact fun _ _ => trivial
  | some sid => exact fun _ _ => rfl

/-- What a request is answered with is a value of its opcode. -/
theorem perform_for {r : Request} {s t : Server σ} {answer : Answer}
    (hrun : (perform env ext platform r).run s = some (answer, t)) : answer.For r.opcode := by
  by_cases hopens : r.Opens
  · have hleaves : Leaves (fun _ => True) (perform env ext platform r) fun a _ => a.For r.opcode := by
      cases r with
      | openTcpPassive localPort => exact leaves_opened _ _
      | openTcpActive localPort remoteIpBe remotePort => exact leaves_opened _ _
      | _ => exact absurd hopens id
    exact hleaves s trivial answer t hrun
  · obtain ⟨answer', t', hrun', hfor⟩ := always_perform env ext platform r hopens s trivial
    rw [hrun] at hrun'
    obtain ⟨rfl, -⟩ := Prod.mk.inj (Option.some.inj hrun')
    exact hfor

/-! ## The round trip -/

theorem utServerLoop_build (r : Request) (reqId : UInt8) (peer : Endpoint) :
    utServerLoop env (platform.registered ext) (r.build reqId) peer =
      perform env ext platform r >>= fun answer =>
        sendResponse env peer (r.opcode ||| kResponseBit) reqId answer.reply := by
  have hlen := r.length_params_le
  have hsize : (r.build reqId).length = r.params.length + 2 := by rw [r.build_eq]; simp
  have htake : (r.build reqId).take kUtRequestBufferLen = [r.opcode, reqId] ++ r.params := by
    rw [List.take_of_length_le (by unfold kUtRequestBufferLen; omega), r.build_eq]
  unfold utServerLoop
  rw [htake]
  dsimp only
  rw [if_neg (by omega)]
  change (if r.opcode &&& kResponseBit ≠ 0 then _ else
    dispatch env (platform.registered ext) r.opcode r.params >>= _) = _
  rw [if_neg (not_not.mpr r.opcode_bits.1), dispatch_params, bind_map_left]
  rfl

theorem UdpDatagram.size_le_word (d : UdpDatagram) : d.payload.length ≤ 0xFFFF :=
  d.size_le.trans (by decide)

/-- What the listener knows of a datagram. -/
def UdpDatagram.record (d : UdpDatagram) (dataPort : UInt16) : ReceiveRecord :=
  ⟨d.src.addrBe, d.origDstBe, d.src.port, dataPort, d.payload, d.size_le_word⟩

/-- The listener takes the datagram, and no armed fault falsifies or swallows its report. -/
structure Reported (s : Server σ) (d : UdpDatagram) : Prop where
  directed : s.appFaultFlavor = kAppFaultAcceptDirectedBroadcast ∨ s.ifaceBcastBe = 0 ∨
    d.origDstBe ≠ s.ifaceBcastBe
  multicast : s.appFaultFlavor = kAppFaultAcceptMulticast ∨ isMulticastV4 d.origDstBe = false
  honest : s.appFaultFlavor ∉ [kAppFaultReportWrongSrcPort, kAppFaultReportWrongSrcIp,
    kAppFaultReportWrongPayload, kAppFaultReportWrongLength, kAppFaultReportNoReceipt]

theorem dataListenerLoop_reported {s : Server σ} {d : UdpDatagram} (h : Reported s d) :
    (dataListenerLoop d).run s = some ((), { s with lastReceipt := some (d.record s.dataPort) }) := by
  have hdirected : ¬ (s.appFaultFlavor ≠ kAppFaultAcceptDirectedBroadcast ∧ s.ifaceBcastBe ≠ 0 ∧
      d.origDstBe = s.ifaceBcastBe) := by
    rintro ⟨hflavor, hbcast, hdst⟩
    rcases h.directed with hd | hd | hd
    · exact hflavor hd
    · exact hbcast hd
    · exact hd hdst
  have hmulticast : ¬ (s.appFaultFlavor ≠ kAppFaultAcceptMulticast ∧
      isMulticastV4 d.origDstBe = true) := by
    rintro ⟨hflavor, hmulti⟩
    rcases h.multicast with hm | hm
    · exact hflavor hm
    · rw [hm] at hmulti
      nomatch hmulti
  have hhonest := h.honest
  simp only [List.mem_cons, List.not_mem_nil, or_false, not_or] at hhonest
  obtain ⟨hport, hip, hpayload, hlength, hnone⟩ := hhonest
  change some ((), if _ then _ else if _ then _ else if _ then _ else _) = _
  rw [if_neg hdirected, if_neg hmulticast, if_neg hnone, receiptOf, if_neg hport, if_neg hip,
    if_neg hpayload, if_neg hlength]
  rfl

/-- **The round trip.** A server that is sent a built request does what the request asks for and sends
the answer's frame to the peer; the client decodes that frame to the answer's report. There is an answer
unless an open takes an id that is in use. What a GetReceivedUdp request answers behind the listener's turn
is the datagram itself. -/
theorem round_trip (r : Request) (reqId : UInt8) (peer : Endpoint) (s : Server σ) :
    (utServerLoop env (platform.registered ext) (r.build reqId) peer).run s =
        ((perform env ext platform r).run s).bind (fun (answer, t) =>
          ((do
            let utFd := (← get).utFd
            let _ ← call env (.sendToV4 utFd (answer.frame r.opcode reqId) peer)) : UT σ Unit).run t) ∧
      (∀ answer t, (perform env ext platform r).run s = some (answer, t) →
        decodeResponse (answer.frame r.opcode reqId) = answer.report r.opcode reqId) ∧
      ((r.Opens → NextFree s) → ∃ answer t, (perform env ext platform r).run s = some (answer, t)) ∧
      ∀ (d : UdpDatagram) (expectedDstIpBe : UInt32), Reported s d →
        expectedDstIpBe = 0 ∨ expectedDstIpBe = d.origDstBe →
          ∃ heard t, (dataListenerLoop d).run s = some ((), heard) ∧
            (perform env ext platform (.getReceivedUdp s.dataPort expectedDstIpBe)).run heard =
              some (.receipt (some (d.record s.dataPort)), t) := by
  refine ⟨?_, fun answer t hrun => decodeResponse_frame r reqId (perform_for env ext platform hrun),
    perform_answers env ext platform r s, ?_⟩
  · rw [utServerLoop_build]
    rfl
  · intro d expectedDstIpBe hreported hexpected
    refine ⟨_, { s with lastReceipt := some (d.record s.dataPort) }, dataListenerLoop_reported hreported, ?_⟩
    change some (Answer.receipt (Option.filter _ (some (d.record s.dataPort))), _) = _
    have hmatches : (((d.record s.dataPort).dstPort == s.dataPort) &&
        (expectedDstIpBe == 0 || (d.record s.dataPort).dstIp == expectedDstIpBe)) = true := by
      rcases hexpected with rfl | rfl <;> simp [UdpDatagram.record]
    rw [Option.filter_some, if_pos hmatches]

end Answers

/-- A platform that does nothing. -/
def idleRun : {α : Type} → ExtOp α → Nat → α × Nat
  | _, .startLinklocal _, n => ((), n)
  | _, .currentAddressBe, n => (0, n)
  | _, .abortLinklocal, n => ((), n)
  | _, .startDhcp _ _, n => ((), n)
  | _, .currentLeaseBe _, n => (0, n)
  | _, .abortDhcp _, n => ((), n)
  | _, .addStaticNeighbor _ _ _, n => (.Ok, n)
  | _, .removeNeighbor _ _, n => (.Ok, n)
  | _, .etharpCleanupNetif, n => ((), n)
  | _, .etharpTmr, n => ((), n)
  | _, .setEgressFaultFlavor _, n => ((), n)
  | _, .setIngressFaultFlavor _, n => ((), n)
  | _, .setEtsFaultFlavor _, n => ((), n)

def idleExt : ExtEnv Nat := ⟨idleRun⟩

def helloDatagram : UdpDatagram :=
  ⟨⟨0x0100000A, 4000⟩, 0x0200000A, [0x68, 0x69], by decide⟩

theorem round_trip_hello :
    ∃ heard t, (dataListenerLoop helloDatagram).run started = some ((), heard) ∧
      (perform countingEnv idleExt (.lwip "tp0") (.getReceivedUdp 13400 0)).run heard =
        some (.receipt (some (helloDatagram.record 13400)), t) := by
  obtain ⟨-, -, -, hreports⟩ := round_trip countingEnv idleExt (.lwip "tp0") .ping 1 ⟨0, 30600⟩ started
  exact hreports helloDatagram 0 ⟨.inr (.inl rfl), .inr (by decide), by decide⟩ (.inl rfl)

end Tc8Harness.UpperTester
