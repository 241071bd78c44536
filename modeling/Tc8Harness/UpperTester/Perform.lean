import Tc8Harness.UpperTester.Client

/-!
# What a request asks for

`perform` is what the server does for a request, on the parameters the client passed to the builder; its
answers are values, sent as `Answer.reply`. Each built-in handler, on the bytes of the built request, does
exactly this. Whether a trailer stands behind a payload is inferred from lengths, so the length field is
shown to be the payload's length first.
-/

namespace Tc8Harness.UpperTester

open BigEndian Wire Someip
open Testability (Endpoint)

/-! ## Fields read back -/

section Fields

variable {a b rest : List UInt8} {off : Nat}

theorem readBe16_skip (h : a.length ≤ off) : readBe16 (a ++ b) off = readBe16 b (off - a.length) := by
  rw [readBe16, readBe16, readBe_append_right h]

theorem readBe16_here (v : UInt16) : readBe16 (putBe16 v ++ rest) 0 = v := by
  rw [readBe16, readBe_putBe16, UInt16.ofNat_toNat]

theorem readBe16_only (v : UInt16) : readBe16 (putBe16 v) 0 = v := by
  have h : readBe16 (putBe16 v ++ []) 0 = v := readBe16_here v
  rwa [List.append_nil] at h

theorem readBe32_skip (h : a.length ≤ off) : readBe32 (a ++ b) off = readBe32 b (off - a.length) := by
  rw [readBe32, readBe32, readBe_append_right h]

theorem readBe32_here (v : UInt32) : readBe32 (putBe32 v ++ rest) 0 = v := by
  rw [readBe32, readBe_putBe32, UInt32.ofNat_toNat]

theorem readBe32_only (v : UInt32) : readBe32 (putBe32 v) 0 = v := by
  have h : readBe32 (putBe32 v ++ []) 0 = v := readBe32_here v
  rwa [List.append_nil] at h

theorem copy32_only (v : UInt32) : copy32 (bytes32 v) 0 = v := by
  have h := copy32_bytes32 v []
  rwa [List.append_nil] at h

end Fields

/-! ## Requests and answers -/

inductive Answer where
  | done
  | failed (status : UInt8)
  | receipt (rec : Option ReceiveRecord)
  | socket (sid : UInt8)
  | established (yes : Bool)
  | received (bytes : List UInt8) (stop : UInt8)
  | urgent (bytes : List UInt8)
  | info (tcp : TcpInfo)
  | ports (count : UInt8)
  | maxOpcode (opcode : UInt8)
  | capabilities (bitmap : List UInt8)
  | llAddress (addrBe : UInt32)
  | dhcpLease (addrBe : UInt32)
  | notPerformed (op : OpStatus)

section Perform

variable {σ : Type} (env : Env σ) (ext : ExtEnv σ) (platform : Platform)

def orFailed (status : UInt8) (ok : Bool) : Answer := if ok then .done else .failed status

/-- The connection of a socket that exists; `-1` where there is none yet. -/
def onSocket (sid : UInt8) (k : Int → UT σ Answer) : UT σ Answer := do
  if ← slotExists sid then k (← slotConnFd sid) else return .failed kStatusUnknownSocket

def sendOnSocket (sid : UInt8) (bytes : List UInt8) : UT σ Answer :=
  onSocket sid fun fd => do
    if 0 ≤ fd then return orFailed kStatusSendFailed (← sendAll env fd bytes)
    else return .failed kStatusSendFailed

def onPosix (k : String → List (List UInt8) → UT σ Answer) : UT σ Answer :=
  match platform with
  | .posix ifname clientMacs => k ifname clientMacs
  | .lwip _ => return .failed kStatusUnknownOpcode

def onLwip (k : UT σ Answer) : UT σ Answer :=
  match platform with
  | .posix _ _ => return .failed kStatusUnknownOpcode
  | .lwip _ => k

def Platform.ifname : Platform → String
  | .posix ifname _ => ifname
  | .lwip ifname => ifname

def ofOpStatus (op : OpStatus) : Answer := if op = .Ok then .done else .notPerformed op

def armFlavor (max : UInt8) (arm : UInt8 → UT σ Unit) (flavor : UInt8) : UT σ Answer := do
  if max < flavor then return .failed kStatusMalformed
  else
    arm flavor
    return .done

/-- What the server does for a request, given the parameters the client passed to the builder. -/
def perform : Request → UT σ Answer
  | .getReceivedUdp listenPort expectedDstIpBe =>
    return .receipt (← lookupReceipt listenPort expectedDstIpBe)
  | .triggerSendUdp srcPort dstIpBe dstPort payload srcIpOverrideBe =>
    return orFailed kStatusSendFailed
      (← triggerSendUdp env srcPort dstIpBe dstPort (payload.1.take kMaxPayload) srcIpOverrideBe)
  | .openTcpPassive localPort =>
    return (← openTcpPassive env localPort).elim (.failed kStatusBindFailed) .socket
  | .openTcpActive localPort remoteIpBe remotePort =>
    return (← openTcpActive env localPort remoteIpBe remotePort).elim
      (.failed kStatusConnectFailed) .socket
  | .closeTcp socketId => return orFailed kStatusUnknownSocket (← tearDownSlot env socketId false)
  | .abortTcp socketId => return orFailed kStatusUnknownSocket (← tearDownSlot env socketId true)
  | .queryTcpEstablished socketId => onSocket socketId fun fd => do
    if 0 ≤ fd then
      let info ← call env (.queryTcpInfo fd)
      return .established (info.any fun i => i.state == kTcpStateEstablished)
    else return .established false
  | .queryTcpInfo socketId => onSocket socketId fun fd => do
    if fd < 0 then return .failed kStatusUnknownSocket
    else return (← call env (.queryTcpInfo fd)).elim (.failed kStatusUnknownSocket) .info
  | .sendTcpData socketId payload => sendOnSocket env socketId (payload.1.take kMaxPayload)
  | .sendTcpDataPattern socketId pattern totalLen =>
    sendOnSocket env socketId (List.replicate totalLen.toNat pattern)
  | .receiveTcpData socketId expectedLen timeoutMs => onSocket socketId fun fd => do
    let want := min expectedLen.toNat kMaxPayload
    if 0 ≤ fd ∧ want ≠ 0 then
      let now ← call env .now
      let (bytes, stop) ← receiveUntil env fd (now + timeoutMs.toNat * 1000000) want
      return .received bytes stop
    else return .received [] kRecvEndNone
  | .receiveTcpDataOob socketId expectedLen timeoutMs => onSocket socketId fun fd => do
    let want := min expectedLen.toNat kMaxPayload
    if 0 ≤ fd ∧ want ≠ 0 then return .urgent (← call env (.recvOob fd want timeoutMs.toNat)).1
    else return .urgent []
  | .shutdownTcpWr socketId => do
    let fd ← slotConnFd socketId
    if 0 ≤ fd then return orFailed kStatusUnknownSocket (← call env (.shutdown fd 1))
    else return .failed kStatusUnknownSocket
  | .createUdpReceivePorts count => return .ports (← createUdpReceivePorts env count)
  | .ping => return .maxOpcode (← get).pingMaxOpcode
  | .queryCapabilities => return .capabilities (← get).capabilityBitmap
  | .startLLAutoconf params => onPosix platform fun _ _ => do
    callExt ext (.startLinklocal { params with })
    return .done
  | .startLLAutoconfBuggy params flavor => onPosix platform fun _ _ => do
    callExt ext (.startLinklocal { params with flavor })
    return .done
  | .queryLLAddress => onPosix platform fun _ _ => return .llAddress (← callExt ext .currentAddressBe)
  | .abortLLAutoconf => onPosix platform fun _ _ => do
    callExt ext .abortLinklocal
    return .done
  | .startDhcpClient params ifaceIndex flavor => onPosix platform fun _ clientMacs => do
    if clientMacs.length ≤ ifaceIndex.toNat then return .failed kStatusMalformed
    else
      callExt ext (.startDhcp ifaceIndex.toNat
        (DhcpParams.routeFlavor { params with } clientMacs ifaceIndex.toNat flavor))
      return .done
  | .queryDhcpLease => onPosix platform fun _ clientMacs => do
    if clientMacs.isEmpty then return .dhcpLease 0
    else return .dhcpLease (← callExt ext (.currentLeaseBe 0))
  | .abortDhcpClient => onPosix platform fun _ clientMacs => do
    abortDhcpClients ext 0 clientMacs
    return .done
  | .arpAddStatic entryIpBe entryMac => do
    return ofOpStatus (← callExt ext (.addStaticNeighbor platform.ifname entryIpBe entryMac.toList))
  | .arpRemoveStatic entryIpBe => do
    return ofOpStatus (← callExt ext (.removeNeighbor platform.ifname entryIpBe))
  | .conditionArpCache action param =>
    match platform with
    | .posix _ _ => return .failed kStatusMalformed
    | .lwip _ => do
      if action = kArpConditionFlushAll then
        callExt ext .etharpCleanupNetif
        return .done
      else if action = kArpConditionAgeBySeconds then
        ageArpTable ext param.toNat
        return .done
      else return .failed kStatusMalformed
  | .setFlavor .egress flavor => onLwip platform
    (armFlavor kEgressFaultMax (fun flavor => callExt ext (.setEgressFaultFlavor flavor)) flavor)
  | .setFlavor .ingress flavor => onLwip platform
    (armFlavor kIngressFaultMax (fun flavor => callExt ext (.setIngressFaultFlavor flavor)) flavor)
  | .setFlavor .app flavor => onLwip platform (armFlavor kAppFaultMax setAppFaultFlavor flavor)
  | .setFlavor .ets flavor => onPosix platform fun _ _ =>
    armFlavor kEtsFaultMax (fun flavor => callExt ext (.setEtsFaultFlavor flavor)) flavor

end Perform

/-- The status and the body an answer is sent as. -/
def Answer.reply : Answer → Reply
  | .done => (kStatusOk, [])
  | .failed status => (status, [])
  | .receipt none => (kStatusOk, [0x00])
  | .receipt (some rec) => (kStatusOk, [0x01] ++ (bytes32 rec.srcIp ++ (putBe16 rec.srcPort ++
    (putBe16 (UInt16.ofNat rec.payload.length) ++ rec.payload.take kMaxPayload))))
  | .socket sid => (kStatusOk, [sid])
  | .established yes => (kStatusOk, [if yes then 1 else 0])
  | .received bytes stop => (kStatusOk, putBe16 (UInt16.ofNat bytes.length) ++ (bytes ++ [stop]))
  | .urgent bytes => (kStatusOk, putBe16 (UInt16.ofNat bytes.length) ++ bytes)
  | .info tcp => (kStatusOk, [tcp.state] ++ (putBe32 tcp.rtoUs ++ ([tcp.retransmits] ++
    putBe32 tcp.unacked)))
  | .ports count => (kStatusOk, [count])
  | .maxOpcode opcode => (kStatusOk, [opcode])
  | .capabilities bitmap => (kStatusOk, [UInt8.ofNat bitmap.length] ++ bitmap)
  | .llAddress addrBe => (kStatusOk, bytes32 addrBe)
  | .dhcpLease addrBe => (kStatusOk, bytes32 addrBe)
  | .notPerformed op => (kStatusNotPerformed, [op.toUInt8])

/-! ## The handlers on built requests -/

section Handlers

variable {σ : Type} (env : Env σ) (ext : ExtEnv σ)

theorem toNat_effectiveLen (len : UInt16) : (effectiveLen len).toNat = min len.toNat kMaxPayload := by
  unfold effectiveLen kMaxPayload
  split
  · next h =>
    rw [UInt16.toNat_ofNat']
    omega
  · next h => omega

/-- The payload of a request is as long as its length field says. -/
theorem payloadBytes_some (bytes : { bytes : List UInt8 // bytes.length ≤ 0xFFFF }) :
    payloadBytes (some bytes.1) (effectiveLen (UInt16.ofNat bytes.1.length)) = bytes.1.take kMaxPayload ∧
      (effectiveLen (UInt16.ofNat bytes.1.length)).toNat = (bytes.1.take kMaxPayload).length := by
  have hsize := bytes.2
  have hlen : (UInt16.ofNat bytes.1.length).toNat = bytes.1.length := by
    rw [UInt16.toNat_ofNat']
    omega
  have heff : (effectiveLen (UInt16.ofNat bytes.1.length)).toNat = min bytes.1.length kMaxPayload := by
    rw [toNat_effectiveLen, hlen]
  refine ⟨?_, ?_⟩
  · have htake : bytes.1.take (min bytes.1.length kMaxPayload) = bytes.1.take kMaxPayload := by
      rw [List.take_eq_take_iff]
      omega
    unfold payloadBytes
    dsimp only
    split
    · rw [heff, htake]
    · next hzero =>
      rw [UInt16.lt_iff_toNat_lt, heff, UInt16.toNat_zero] at hzero
      have hnil : bytes.1.length = 0 := by
        unfold kMaxPayload at hzero
        omega
      rw [List.length_eq_zero_iff.mp hnil, List.take_nil]
  · rw [heff, List.length_take, Nat.min_comm]

theorem handleGetReceivedUdp_params (listenPort : UInt16) (expectedDstIpBe : UInt32) :
    (handleGetReceivedUdp (putBe16 listenPort ++ bytes32 expectedDstIpBe) : UT σ Reply) =
      Answer.reply <$> do return .receipt (← lookupReceipt listenPort expectedDstIpBe) := by
  unfold handleGetReceivedUdp
  rw [if_neg (by simp), readU16, readBe16_here, ipFromWire, copy32_append_right (by simp),
    length_putBe16, copy32_only, map_bind]
  congr 1
  funext receipt
  cases receipt with
  | none => rfl
  | some rec =>
    have hsize := rec.size_le
    dsimp only
    rw [if_neg (by omega)]
    rfl

/-- With the trailer and without it: the payload's length decides which length the request has. -/
theorem handleTriggerSendUdp_params (srcPort : UInt16) (dstIpBe : UInt32) (dstPort : UInt16)
    (payload : { bytes : List UInt8 // bytes.length ≤ 0xFFFF }) (srcIpOverrideBe : UInt32) :
    handleTriggerSendUdp env ((buildTriggerSendUdpRequest 0 srcPort dstIpBe dstPort (some payload.1)
        (UInt16.ofNat payload.1.length) srcIpOverrideBe).drop 2) =
      Answer.reply <$> do
        return orFailed kStatusSendFailed
          (← triggerSendUdp env srcPort dstIpBe dstPort (payload.1.take kMaxPayload) srcIpOverrideBe) := by
  obtain ⟨hbytes, hlen⟩ := payloadBytes_some payload
  generalize hp : (buildTriggerSendUdpRequest 0 srcPort dstIpBe dstPort (some payload.1)
    (UInt16.ofNat payload.1.length) srcIpOverrideBe).drop 2 = p
  replace hp : p = putBe16 srcPort ++ (bytes32 dstIpBe ++ (putBe16 dstPort ++
      (putBe16 (effectiveLen (UInt16.ofNat payload.1.length)) ++ (payload.1.take kMaxPayload ++
        if srcIpOverrideBe ≠ 0 then bytes32 srcIpOverrideBe else [])))) := by
    rw [← hp, ← hbytes]
    rfl
  generalize effectiveLen (UInt16.ofNat payload.1.length) = len at hlen hp
  generalize payload.1.take kMaxPayload = bytes at hlen hp
  have hsrc : readU16 p 0 = srcPort := by rw [hp, readU16, readBe16_here]
  have hdst : ipFromWire p 2 = dstIpBe := by
    rw [hp, ipFromWire, copy32_append_right (by simp), length_putBe16, copy32_bytes32]
  have hport : readU16 p 6 = dstPort := by
    rw [hp, readU16, readBe16_skip (by simp), readBe16_skip (by simp), length_putBe16, length_bytes32,
      readBe16_here]
  have hplen : readU16 p 8 = len := by
    rw [hp, readU16, readBe16_skip (by simp), readBe16_skip (by simp), readBe16_skip (by simp),
      length_putBe16, length_bytes32, length_putBe16, readBe16_here]
  obtain ⟨tail, htail⟩ : ∃ tail, tail = if srcIpOverrideBe ≠ 0 then bytes32 srcIpOverrideBe else [] :=
    ⟨_, rfl⟩
  have hsplit : ∃ head : List UInt8, head.length = 10 ∧ p = head ++ (bytes ++ tail) := by
    refine ⟨putBe16 srcPort ++ (bytes32 dstIpBe ++ (putBe16 dstPort ++ putBe16 len)), by simp, ?_⟩
    rw [hp, htail]
    simp only [List.append_assoc]
  clear hp
  obtain ⟨head, hhead, rfl⟩ := hsplit
  have hsize : (head ++ (bytes ++ tail)).length = 10 + len.toNat + tail.length := by
    rw [List.length_append, List.length_append, hhead, hlen, Nat.add_assoc]
  have htake : ((head ++ (bytes ++ tail)).drop 10).take len.toNat = bytes := by
    rw [List.drop_left' hhead, hlen, List.take_left]
  -- a trailer stands behind the payload exactly when there is an override
  have hoverride : (if (head ++ (bytes ++ tail)).length = 10 + len.toNat then 0
        else ipFromWire (head ++ (bytes ++ tail)) (10 + len.toNat)) = srcIpOverrideBe ∧
      ((head ++ (bytes ++ tail)).length = 10 + len.toNat ∨
        (head ++ (bytes ++ tail)).length = 10 + len.toNat + 4) := by
    by_cases hzero : srcIpOverrideBe = 0
    · rw [if_neg (not_not.mpr hzero)] at htail
      rw [hsize, htail, List.length_nil, Nat.add_zero, if_pos rfl]
      exact ⟨hzero.symm, .inl rfl⟩
    · rw [if_pos hzero] at htail
      rw [hsize, htail, length_bytes32, if_neg (by omega), ipFromWire,
        copy32_append_right (by omega), copy32_append_right (by omega),
        show 10 + len.toNat - head.length - bytes.length = 0 by omega, copy32_only]
      exact ⟨rfl, .inr rfl⟩
  unfold handleTriggerSendUdp
  rw [if_neg (by omega)]
  dsimp only
  rw [hsrc, hdst, hport, hplen, htake, if_pos hoverride.2, hoverride.1, map_bind]
  congr 1
  funext ok
  cases ok <;> rfl

theorem handleOpenTcpSocket_passive (localPort : UInt16) :
    handleOpenTcpSocket env ([kSocketTypePassive] ++ putBe16 localPort) = Answer.reply <$> do
      return (← openTcpPassive env localPort).elim (.failed kStatusBindFailed) .socket := by
  unfold handleOpenTcpSocket
  rw [if_neg (by simp)]
  dsimp only
  rw [if_pos (show List.getD _ 0 0 = kSocketTypePassive from rfl), readU16, readBe16_skip (by simp),
    List.length_singleton, readBe16_only, map_bind]
  congr 1
  funext sid
  cases sid <;> rfl

theorem handleOpenTcpSocket_active (localPort : UInt16) (remoteIpBe : UInt32) (remotePort : UInt16) :
    handleOpenTcpSocket env ([kSocketTypeActive] ++ (putBe16 localPort ++ (bytes32 remoteIpBe ++
        putBe16 remotePort))) = Answer.reply <$> do
      return (← openTcpActive env localPort remoteIpBe remotePort).elim
        (.failed kStatusConnectFailed) .socket := by
  generalize hp : [kSocketTypeActive] ++ (putBe16 localPort ++ (bytes32 remoteIpBe ++
    putBe16 remotePort)) = p
  have hsize : p.length = 9 := by rw [← hp]; simp
  have htype : p.getD 0 0 = kSocketTypeActive := by rw [← hp]; rfl
  have hlocal : readU16 p 1 = localPort := by
    rw [← hp, readU16, readBe16_skip (by simp), List.length_singleton, readBe16_here]
  have hremote : ipFromWire p 3 = remoteIpBe := by
    rw [← hp, ipFromWire, copy32_append_right (by simp), copy32_append_right (by simp),
      List.length_singleton, length_putBe16, copy32_bytes32]
  have hport : readU16 p 7 = remotePort := by
    rw [← hp, readU16, readBe16_skip (by simp), readBe16_skip (by simp), readBe16_skip (by simp),
      List.length_singleton, length_putBe16, length_bytes32, readBe16_only]
  unfold handleOpenTcpSocket
  rw [if_neg (by omega)]
  dsimp only
  rw [htype, hlocal, hremote, hport, if_neg (by decide), if_pos rfl, if_neg (by omega), map_bind]
  congr 1
  funext sid
  cases sid <;> rfl

theorem tearDown_params (abort : Bool) (socketId : UInt8) :
    tearDown env abort [socketId] = Answer.reply <$> do
      return orFailed kStatusUnknownSocket (← tearDownSlot env socketId abort) := by
  unfold tearDown
  rw [if_neg (by simp), map_bind]
  congr 1
  funext ok
  cases ok <;> rfl

theorem reply_onSocket (sid : UInt8) (k : Int → UT σ Answer) :
    Answer.reply <$> onSocket sid k = do
      if ← slotExists sid then Answer.reply <$> k (← slotConnFd sid)
      else return (kStatusUnknownSocket, []) := by
  unfold onSocket
  simp only [map_bind, map_pure, apply_ite (Functor.map Answer.reply)]
  rfl

theorem sendOn_eq (sid : UInt8) (bytes : List UInt8) :
    sendOn env sid bytes = Answer.reply <$> sendOnSocket env sid bytes := by
  unfold sendOn sendOnSocket
  rw [reply_onSocket]
  simp only [map_bind, map_pure, apply_ite (Functor.map Answer.reply)]
  congr 1
  funext known
  congr 2
  funext fd
  congr 2
  funext ok
  cases ok <;> rfl

theorem handleQueryTcpEstablished_params (socketId : UInt8) :
    handleQueryTcpEstablished env [socketId] = Answer.reply <$> onSocket socketId fun fd => do
      if 0 ≤ fd then
        let info ← call env (.queryTcpInfo fd)
        return .established (info.any fun i => i.state == kTcpStateEstablished)
      else return .established false := by
  unfold handleQueryTcpEstablished
  rw [if_neg (by simp), reply_onSocket]
  simp only [map_bind, map_pure, apply_ite (Functor.map Answer.reply)]
  rfl

theorem handleQueryTcpInfo_params (socketId : UInt8) :
    handleQueryTcpInfo env [socketId] = Answer.reply <$> onSocket socketId fun fd => do
      if fd < 0 then return .failed kStatusUnknownSocket
      else return (← call env (.queryTcpInfo fd)).elim (.failed kStatusUnknownSocket) .info := by
  unfold handleQueryTcpInfo
  rw [if_neg (by simp), reply_onSocket]
  simp only [map_bind, map_pure, apply_ite (Functor.map Answer.reply)]
  congr 1
  funext known
  congr 2
  funext fd
  congr 2
  funext info
  cases info <;> rfl

theorem handleSendTcpData_params (socketId : UInt8)
    (payload : { bytes : List UInt8 // bytes.length ≤ 0xFFFF }) :
    handleSendTcpData env ([socketId] ++ (putBe16 (effectiveLen (UInt16.ofNat payload.1.length)) ++
        payloadBytes (some payload.1) (effectiveLen (UInt16.ofNat payload.1.length)))) =
      Answer.reply <$> sendOnSocket env socketId (payload.1.take kMaxPayload) := by
  obtain ⟨hbytes, hlen⟩ := payloadBytes_some payload
  rw [hbytes]
  generalize effectiveLen (UInt16.ofNat payload.1.length) = len at hlen
  generalize payload.1.take kMaxPayload = bytes at hlen
  unfold handleSendTcpData
  rw [if_neg (by simp), readU16, readBe16_skip (by simp), List.length_singleton, readBe16_here]
  dsimp only
  rw [if_neg (by simp; omega), ← List.append_assoc, List.drop_left' (by simp), hlen,
    List.take_length, ← sendOn_eq]
  rfl

theorem handleSendTcpDataPattern_params (socketId pattern : UInt8) (totalLen : UInt16) :
    handleSendTcpDataPattern env ([socketId] ++ ([pattern] ++ putBe16 totalLen)) =
      Answer.reply <$> sendOnSocket env socketId (List.replicate totalLen.toNat pattern) := by
  unfold handleSendTcpDataPattern
  rw [if_neg (by simp), readU16, readBe16_skip (by simp), readBe16_skip (by simp),
    List.length_singleton, List.length_singleton, readBe16_only, ← sendOn_eq]
  rfl

/-- The two receive requests have their parameters in the same places. -/
theorem readReceive (socketId : UInt8) (expectedLen timeoutMs : UInt16) :
    (readU16 ([socketId] ++ (putBe16 (effectiveLen expectedLen) ++ putBe16 timeoutMs)) 1).toNat =
        min expectedLen.toNat kMaxPayload ∧
      readU16 ([socketId] ++ (putBe16 (effectiveLen expectedLen) ++ putBe16 timeoutMs)) 3 =
        timeoutMs := by
  refine ⟨?_, ?_⟩
  · rw [readU16, readBe16_skip (by simp), List.length_singleton, readBe16_here, toNat_effectiveLen]
  · rw [readU16, readBe16_skip (by simp), readBe16_skip (by simp), List.length_singleton,
      length_putBe16, readBe16_only]

theorem handleReceiveTcpData_params (socketId : UInt8) (expectedLen timeoutMs : UInt16) :
    handleReceiveTcpData env ([socketId] ++ (putBe16 (effectiveLen expectedLen) ++ putBe16 timeoutMs)) =
      Answer.reply <$> onSocket socketId fun fd => do
        let want := min expectedLen.toNat kMaxPayload
        if 0 ≤ fd ∧ want ≠ 0 then
          let now ← call env .now
          let (bytes, stop) ← receiveUntil env fd (now + timeoutMs.toNat * 1000000) want
          return .received bytes stop
        else return .received [] kRecvEndNone := by
  obtain ⟨hwant, htimeout⟩ := readReceive socketId expectedLen timeoutMs
  unfold handleReceiveTcpData
  rw [if_neg (by simp), reply_onSocket]
  simp only [map_bind, map_pure, apply_ite (Functor.map Answer.reply), hwant, htimeout]
  rfl

theorem handleReceiveTcpDataOob_params (socketId : UInt8) (expectedLen timeoutMs : UInt16) :
    handleReceiveTcpDataOob env
        ([socketId] ++ (putBe16 (effectiveLen expectedLen) ++ putBe16 timeoutMs)) =
      Answer.reply <$> onSocket socketId fun fd => do
        let want := min expectedLen.toNat kMaxPayload
        if 0 ≤ fd ∧ want ≠ 0 then return .urgent (← call env (.recvOob fd want timeoutMs.toNat)).1
        else return .urgent [] := by
  obtain ⟨hwant, htimeout⟩ := readReceive socketId expectedLen timeoutMs
  unfold handleReceiveTcpDataOob
  dsimp only
  rw [if_neg (by simp), reply_onSocket, hwant, htimeout]
  simp only [map_bind, map_pure, apply_ite (Functor.map Answer.reply)]
  rfl

theorem handleShutdownTcpSocketWr_params (socketId : UInt8) :
    handleShutdownTcpSocketWr env [socketId] = Answer.reply <$> do
      let fd ← slotConnFd socketId
      if 0 ≤ fd then return orFailed kStatusUnknownSocket (← call env (.shutdown fd 1))
      else return .failed kStatusUnknownSocket := by
  unfold handleShutdownTcpSocketWr
  rw [if_neg (by simp)]
  simp only [map_bind, map_pure, apply_ite (Functor.map Answer.reply)]
  congr 1
  funext fd
  congr 2
  funext ok
  cases ok <;> rfl

end Handlers

end Tc8Harness.UpperTester
