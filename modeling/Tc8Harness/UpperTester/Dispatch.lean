import Tc8Harness.UpperTester.Perform

/-!
# Built requests in the table of handlers

The platforms' handlers on built requests, and `dispatch_params`: whichever platform serves the request,
the handler of its opcode recovers the parameters. Where a platform does not register the opcode the
request is answered as unknown.
-/

namespace Tc8Harness.UpperTester

open BigEndian Wire Someip

section Platforms

variable {σ : Type} (env : Env σ) (ext : ExtEnv σ)

/-! ## The platforms' handlers -/

theorem readLinklocalTimings_put (params : LinklocalTimings) (rest : List UInt8) :
    readLinklocalTimings (putLinklocalTimings params ++ rest) = params := by
  unfold readLinklocalTimings putLinklocalTimings
  simp only [List.append_assoc]
  simp (disch := simp) only [readU16, readBe16_skip, length_putBe16, readBe16_here, Nat.reduceSub]

theorem length_putLinklocalTimings (params : LinklocalTimings) :
    (putLinklocalTimings params).length = 14 := by
  simp [putLinklocalTimings]

theorem handleStartLLAutoconf_params (params : LinklocalTimings) :
    handleStartLLAutoconf ext (putLinklocalTimings params) = Answer.reply <$> do
      callExt ext (.startLinklocal { params with })
      return .done := by
  have hread := readLinklocalTimings_put params []
  rw [List.append_nil] at hread
  unfold handleStartLLAutoconf
  rw [if_neg (by rw [length_putLinklocalTimings]; decide), hread, map_bind]
  rfl

theorem handleStartLLAutoconfBuggy_params (params : LinklocalTimings) (flavor : UInt8) :
    handleStartLLAutoconfBuggy ext (putLinklocalTimings params ++ [flavor]) = Answer.reply <$> do
      callExt ext (.startLinklocal { params with flavor })
      return .done := by
  have hflavor : (putLinklocalTimings params ++ [flavor]).getD 14 0 = flavor := by
    rw [getD_append_right (by rw [length_putLinklocalTimings]), length_putLinklocalTimings]
    rfl
  unfold handleStartLLAutoconfBuggy
  rw [if_neg (by simp [length_putLinklocalTimings]), readLinklocalTimings_put, hflavor, map_bind]
  rfl

/-- The parameters of a DHCP start. -/
def putDhcpParams (params : DhcpTimings) (ifaceIndex flavor : UInt8) : List UInt8 :=
  (buildStartDhcpClientRequest 0 params ifaceIndex flavor).drop 2

theorem readDhcpTimings_put (params : DhcpTimings) (ifaceIndex flavor : UInt8) :
    readDhcpTimings (putDhcpParams params ifaceIndex flavor) = params ∧
      (putDhcpParams params ifaceIndex flavor).length = 25 ∧
      (putDhcpParams params ifaceIndex flavor).getD 23 0 = ifaceIndex ∧
      (putDhcpParams params ifaceIndex flavor).getD 24 0 = flavor := by
  have hput : putDhcpParams params ifaceIndex flavor =
    putBe16 params.offerWaitMs ++ (putBe16 params.ackWaitMs ++
    ([params.retryCount] ++ (putBe16 params.retryIntervalMs ++ (putBe16 params.nakToDiscoverMinMs ++
    (putBe16 params.nakToDiscoverMaxMs ++ (putBe16 params.arpProbeListenMs ++
    (putBe16 params.declineToDiscoverMinMs ++ (putBe16 params.declineToDiscoverMaxMs ++
    (putBe16 params.retxFirstMs ++ (putBe16 params.retxCapMs ++ (putBe16 params.retxJitterMs ++
    ([ifaceIndex] ++ [flavor])))))))))))) := rfl
  have hlen : (putDhcpParams params ifaceIndex flavor).length = 25 := by rw [hput]; simp
  refine ⟨?_, hlen, ?_, ?_⟩
  · unfold readDhcpTimings
    rw [hlen]
    simp only [Nat.reduceLeDiff, if_true]
    rw [hput]
    simp (disch := simp) only [readU16, readBe16_skip, length_putBe16, readBe16_here, Nat.reduceSub,
      List.length_singleton, getD_append_right]
    rfl
  · rw [hput]
    simp (disch := simp) only [getD_append_right, length_putBe16, List.length_singleton, Nat.reduceSub]
    rfl
  · rw [hput]
    simp (disch := simp) only [getD_append_right, length_putBe16, List.length_singleton, Nat.reduceSub]
    rfl

theorem handleStartDhcpClient_params (clientMacs : List (List UInt8)) (params : DhcpTimings)
    (ifaceIndex flavor : UInt8) :
    handleStartDhcpClient ext clientMacs (putDhcpParams params ifaceIndex flavor) = Answer.reply <$> do
      if clientMacs.length ≤ ifaceIndex.toNat then return .failed kStatusMalformed
      else
        callExt ext (.startDhcp ifaceIndex.toNat
          (DhcpParams.routeFlavor { params with } clientMacs ifaceIndex.toNat flavor))
        return .done := by
  obtain ⟨hread, hlen, hiface, hflavor⟩ := readDhcpTimings_put params ifaceIndex flavor
  unfold handleStartDhcpClient
  rw [hlen, hread, hiface, hflavor]
  simp only [map_bind, map_pure, apply_ite (Functor.map Answer.reply), Nat.reduceLT, Nat.reduceLeDiff,
    if_true, if_false]
  rfl

theorem handleQueryDhcpLease_params (clientMacs : List (List UInt8)) :
    handleQueryDhcpLease ext clientMacs [] = Answer.reply <$> do
      if clientMacs.isEmpty then return .dhcpLease 0
      else return .dhcpLease (← callExt ext (.currentLeaseBe 0)) := by
  unfold handleQueryDhcpLease
  simp only [map_bind, map_pure, apply_ite (Functor.map Answer.reply)]
  rfl

theorem opStatusReply_eq (op : OpStatus) : opStatusReply op = (ofOpStatus op).reply := by
  cases op <;> rfl

theorem applyArpStaticEntry_add (ifname : String) (entryIpBe : UInt32) (entryMac : Vector UInt8 6) :
    applyArpStaticEntry ext ifname ([kArpConditionAddStatic] ++ (putBe16 0 ++ (bytes32 entryIpBe ++
        entryMac.toList))) = do
      return some (ofOpStatus
        (← callExt ext (.addStaticNeighbor ifname entryIpBe entryMac.toList))).reply := by
  generalize hp : [kArpConditionAddStatic] ++ (putBe16 0 ++ (bytes32 entryIpBe ++ entryMac.toList)) = p
  have hsize : p.length = 13 := by rw [← hp]; simp
  have haction : p.getD 0 0 = kArpConditionAddStatic := by rw [← hp]; rfl
  have hip : copy32 p 3 = entryIpBe := by
    rw [← hp, copy32_append_right (by simp), copy32_append_right (by simp), List.length_singleton,
      length_putBe16, copy32_bytes32]
  have hmac : (p.drop 7).take 6 = entryMac.toList := by
    rw [← hp, ← List.append_assoc, ← List.append_assoc, List.drop_left' (by simp),
      List.take_of_length_le (by simp)]
  unfold applyArpStaticEntry
  rw [hsize, haction, if_neg (by decide), if_pos rfl, if_neg (by decide), hip, hmac]
  simp only [opStatusReply_eq]

theorem applyArpStaticEntry_remove (ifname : String) (entryIpBe : UInt32) :
    applyArpStaticEntry ext ifname ([kArpConditionRemoveStatic] ++ (putBe16 0 ++ bytes32 entryIpBe)) = do
      return some (ofOpStatus (← callExt ext (.removeNeighbor ifname entryIpBe))).reply := by
  generalize hp : [kArpConditionRemoveStatic] ++ (putBe16 0 ++ bytes32 entryIpBe) = p
  have hsize : p.length = 7 := by rw [← hp]; simp
  have haction : p.getD 0 0 = kArpConditionRemoveStatic := by rw [← hp]; rfl
  have hip : copy32 p 3 = entryIpBe := by
    rw [← hp, copy32_append_right (by simp), copy32_append_right (by simp), List.length_singleton,
      length_putBe16, copy32_only]
  unfold applyArpStaticEntry
  rw [hsize, haction, if_neg (by decide), if_neg (by decide), if_pos rfl, if_neg (by decide), hip]
  simp only [opStatusReply_eq]

/-- A static entry is asked for with the entry: an action alone is malformed or another one's. -/
theorem applyArpStaticEntry_action (ifname : String) (action : UInt8) (param : UInt16) :
    applyArpStaticEntry ext ifname ([action] ++ putBe16 param) =
      pure (if action = kArpConditionAddStatic ∨ action = kArpConditionRemoveStatic then
        some (kStatusMalformed, []) else none) := by
  have hsize : ([action] ++ putBe16 param).length = 3 := by simp
  unfold applyArpStaticEntry
  rw [hsize, if_neg (by decide)]
  change (if action = _ then _ else if action = _ then _ else _) = _
  split_ifs with hadd hremove hor <;> simp_all

theorem handleConditionArpCacheLwip_action (ifname : String) (action : UInt8) (param : UInt16) :
    handleConditionArpCacheLwip ext ifname ([action] ++ putBe16 param) = Answer.reply <$> do
      if action = kArpConditionFlushAll then
        callExt ext .etharpCleanupNetif
        return .done
      else if action = kArpConditionAgeBySeconds then
        ageArpTable ext param.toNat
        return .done
      else return .failed kStatusMalformed := by
  have hparam : readU16 ([action] ++ putBe16 param) 1 = param := by
    rw [readU16, readBe16_skip (by simp), List.length_singleton, readBe16_only]
  unfold handleConditionArpCacheLwip
  rw [applyArpStaticEntry_action, pure_bind, hparam]
  by_cases hstatic : action = kArpConditionAddStatic ∨ action = kArpConditionRemoveStatic
  · rw [if_pos hstatic]
    rcases hstatic with rfl | rfl <;> rfl
  · rw [if_neg hstatic]
    dsimp only
    rw [if_neg (by simp)]
    simp only [map_bind, map_pure, apply_ite (Functor.map Answer.reply)]
    rfl

theorem handleSetFlavor_params (max : UInt8) (arm : UInt8 → UT σ Unit) (flavor : UInt8) :
    handleSetFlavor max arm [flavor] = Answer.reply <$> armFlavor max arm flavor := by
  unfold handleSetFlavor armFlavor
  simp only [map_bind, map_pure, apply_ite (Functor.map Answer.reply)]
  by_cases hmax : max < flavor
  · rw [if_pos (.inr hmax), if_pos hmax]
    rfl
  · rw [if_neg (by simp [hmax]), if_neg hmax]
    rfl

/-! ## Dispatch -/

def Request.opcode : Request → UInt8
  | getReceivedUdp _ _ => opGetReceivedUdp
  | triggerSendUdp _ _ _ _ _ => opTriggerSendUdp
  | openTcpPassive _ => opOpenTcpSocket
  | openTcpActive _ _ _ => opOpenTcpSocket
  | closeTcp _ => opCloseTcpSocket
  | queryTcpEstablished _ => opQueryTcpEstablished
  | queryTcpInfo _ => opQueryTcpInfo
  | sendTcpData _ _ => opSendTcpData
  | receiveTcpData _ _ _ => opReceiveTcpData
  | receiveTcpDataOob _ _ _ => opReceiveTcpDataOob
  | shutdownTcpWr _ => opShutdownTcpSocketWr
  | abortTcp _ => opAbortTcpSocket
  | sendTcpDataPattern _ _ _ => opSendTcpDataPattern
  | startLLAutoconf _ => opStartLLAutoconf
  | queryLLAddress => opQueryLLAddress
  | abortLLAutoconf => opAbortLLAutoconf
  | startDhcpClient _ _ _ => opStartDhcpClient
  | queryDhcpLease => opQueryDhcpLease
  | abortDhcpClient => opAbortDhcpClient
  | createUdpReceivePorts _ => opCreateUdpReceivePorts
  | ping => opPing
  | queryCapabilities => opQueryCapabilities
  | conditionArpCache _ _ => opConditionArpCache
  | arpAddStatic _ _ => opConditionArpCache
  | arpRemoveStatic _ => opConditionArpCache
  | setFlavor target _ => target.opcode
  | startLLAutoconfBuggy _ _ => opStartLLAutoconfBuggy

/-- What stands behind the request id. -/
def Request.params (r : Request) : List UInt8 := (r.build 0).drop 2

theorem Request.build_eq (r : Request) (reqId : UInt8) :
    r.build reqId = [r.opcode, reqId] ++ r.params := by
  cases r <;> rfl

/-- No built request outgrows the server's buffer. -/
theorem Request.length_params_le (r : Request) : r.params.length ≤ 270 := by
  have hpayload : ∀ payload : { bytes : List UInt8 // bytes.length ≤ 0xFFFF },
      (payloadBytes (some payload.1) (effectiveLen (UInt16.ofNat payload.1.length))).length ≤ 256 := by
    intro payload
    rw [(payloadBytes_some payload).1, List.length_take]
    exact Nat.min_le_left _ _
  cases r with
  | triggerSendUdp srcPort dstIpBe dstPort payload srcIpOverrideBe =>
    have hlen := hpayload payload
    have htail : (if srcIpOverrideBe ≠ 0 then bytes32 srcIpOverrideBe else []).length ≤ 4 := by
      split <;> simp
    simp only [params, build, buildTriggerSendUdpRequest, List.length_drop, List.length_append,
      length_putBe16, length_bytes32, List.length_cons, List.length_nil]
    omega
  | sendTcpData socketId payload =>
    have hlen := hpayload payload
    simp only [params, build, buildSendTcpDataRequest, List.length_drop, List.length_append,
      length_putBe16, List.length_cons, List.length_nil]
    omega
  | _ =>
    simp [params, build, buildGetReceivedUdpRequest, buildOpenTcpSocketPassiveRequest,
      buildOpenTcpSocketActiveRequest, buildCloseTcpSocketRequest, buildQueryTcpEstablishedRequest,
      buildQueryTcpInfoRequest, buildReceiveTcpDataRequest, buildReceiveTcpDataOobRequest,
      buildShutdownTcpSocketWrRequest, buildAbortTcpSocketRequest, buildSendTcpDataPatternRequest,
      buildStartLLAutoconfRequest, buildQueryLLAddressRequest, buildAbortLLAutoconfRequest,
      buildStartDhcpClientRequest, buildQueryDhcpLeaseRequest, buildAbortDhcpClientRequest,
      buildCreateUdpReceivePortsRequest, buildPingRequest, buildQueryCapabilitiesRequest,
      buildConditionArpCacheRequest, buildArpAddStaticRequest, buildArpRemoveStaticRequest,
      buildSetFlavorRequest, buildStartLLAutoconfBuggyRequest, putLinklocalTimings]

theorem dispatch_builtin {platform : Platform} {opcode : UInt8} {handler : Handler σ}
    (hreg : platform.registered ext opcode = none) (h : builtin env opcode = some handler)
    (p : List UInt8) : dispatch env (platform.registered ext) opcode p = handler p := by
  unfold dispatch
  rw [hreg, Option.none_or, h]

theorem dispatch_registered {platform : Platform} {opcode : UInt8} {handler : Handler σ}
    (h : platform.registered ext opcode = some handler) (p : List UInt8) :
    dispatch env (platform.registered ext) opcode p = handler p := by
  unfold dispatch
  rw [h, Option.some_or]

theorem dispatch_unknown {platform : Platform} {opcode : UInt8}
    (hreg : platform.registered ext opcode = none) (h : builtin env opcode = none)
    (p : List UInt8) :
    dispatch env (platform.registered ext) opcode p = pure (kStatusUnknownOpcode, []) := by
  unfold dispatch
  rw [hreg, h, Option.none_or]

/-- **The handler recovers the parameters**: on the bytes of a built request it does what the request
asks for. -/
theorem dispatch_params (platform : Platform) (r : Request) :
    dispatch env (platform.registered ext) r.opcode r.params =
      Answer.reply <$> perform env ext platform r := by
  have hcore : ∀ {opcode : UInt8} {handler : Handler σ}, builtin env opcode = some handler →
      (∀ platform : Platform, platform.registered ext opcode = none) → ∀ p,
        dispatch env (platform.registered ext) opcode p = handler p :=
    fun h hreg p => dispatch_builtin env ext (hreg platform) h p
  cases r with
  | getReceivedUdp listenPort expectedDstIpBe =>
    exact (hcore rfl (fun platform => by cases platform <;> rfl) _).trans
      (handleGetReceivedUdp_params listenPort expectedDstIpBe)
  | triggerSendUdp srcPort dstIpBe dstPort payload srcIpOverrideBe =>
    exact (hcore rfl (fun platform => by cases platform <;> rfl) _).trans
      (handleTriggerSendUdp_params env srcPort dstIpBe dstPort payload srcIpOverrideBe)
  | openTcpPassive localPort =>
    exact (hcore rfl (fun platform => by cases platform <;> rfl) _).trans
      (handleOpenTcpSocket_passive env localPort)
  | openTcpActive localPort remoteIpBe remotePort =>
    exact (hcore rfl (fun platform => by cases platform <;> rfl) _).trans
      (handleOpenTcpSocket_active env localPort remoteIpBe remotePort)
  | closeTcp socketId =>
    exact (hcore rfl (fun platform => by cases platform <;> rfl) _).trans
      (tearDown_params env false socketId)
  | abortTcp socketId =>
    exact (hcore rfl (fun platform => by cases platform <;> rfl) _).trans
      (tearDown_params env true socketId)
  | queryTcpEstablished socketId =>
    exact (hcore rfl (fun platform => by cases platform <;> rfl) _).trans
      (handleQueryTcpEstablished_params env socketId)
  | queryTcpInfo socketId =>
    exact (hcore rfl (fun platform => by cases platform <;> rfl) _).trans
      (handleQueryTcpInfo_params env socketId)
  | sendTcpData socketId payload =>
    exact (hcore rfl (fun platform => by cases platform <;> rfl) _).trans
      (handleSendTcpData_params env socketId payload)
  | sendTcpDataPattern socketId pattern totalLen =>
    exact (hcore rfl (fun platform => by cases platform <;> rfl) _).trans
      (handleSendTcpDataPattern_params env socketId pattern totalLen)
  | receiveTcpData socketId expectedLen timeoutMs =>
    exact (hcore rfl (fun platform => by cases platform <;> rfl) _).trans
      (handleReceiveTcpData_params env socketId expectedLen timeoutMs)
  | receiveTcpDataOob socketId expectedLen timeoutMs =>
    exact (hcore rfl (fun platform => by cases platform <;> rfl) _).trans
      (handleReceiveTcpDataOob_params env socketId expectedLen timeoutMs)
  | shutdownTcpWr socketId =>
    exact (hcore rfl (fun platform => by cases platform <;> rfl) _).trans
      (handleShutdownTcpSocketWr_params env socketId)
  | createUdpReceivePorts count =>
    refine (hcore rfl (fun platform => by cases platform <;> rfl) _).trans ?_
    rw [perform, map_bind]
    rfl
  | ping =>
    refine (hcore rfl (fun platform => by cases platform <;> rfl) _).trans ?_
    rw [perform, map_bind]
    rfl
  | queryCapabilities =>
    refine (hcore rfl (fun platform => by cases platform <;> rfl) _).trans ?_
    rw [perform, map_bind]
    rfl
  | startLLAutoconf params =>
    cases platform with
    | lwip ifname => exact dispatch_unknown env ext rfl rfl _
    | posix ifname clientMacs =>
      exact (dispatch_registered env ext rfl _).trans (handleStartLLAutoconf_params ext params)
  | startLLAutoconfBuggy params flavor =>
    cases platform with
    | lwip ifname => exact dispatch_unknown env ext rfl rfl _
    | posix ifname clientMacs =>
      exact (dispatch_registered env ext rfl _).trans (handleStartLLAutoconfBuggy_params ext params flavor)
  | queryLLAddress =>
    cases platform with
    | lwip ifname => exact dispatch_unknown env ext rfl rfl _
    | posix ifname clientMacs =>
      refine (dispatch_registered env ext rfl _).trans ?_
      rfl
  | abortLLAutoconf =>
    cases platform with
    | lwip ifname => exact dispatch_unknown env ext rfl rfl _
    | posix ifname clientMacs =>
      refine (dispatch_registered env ext rfl _).trans ?_
      rfl
  | startDhcpClient params ifaceIndex flavor =>
    cases platform with
    | lwip ifname => exact dispatch_unknown env ext rfl rfl _
    | posix ifname clientMacs =>
      exact (dispatch_registered env ext rfl _).trans
        (handleStartDhcpClient_params ext clientMacs params ifaceIndex flavor)
  | queryDhcpLease =>
    cases platform with
    | lwip ifname => exact dispatch_unknown env ext rfl rfl _
    | posix ifname clientMacs =>
      exact (dispatch_registered env ext rfl _).trans (handleQueryDhcpLease_params ext clientMacs)
  | abortDhcpClient =>
    cases platform with
    | lwip ifname => exact dispatch_unknown env ext rfl rfl _
    | posix ifname clientMacs =>
      refine (dispatch_registered env ext rfl _).trans ?_
      unfold handleAbortDhcpClient perform onPosix
      rw [map_bind]
      rfl
  | arpAddStatic entryIpBe entryMac =>
    cases platform with
    | lwip ifname =>
      refine (dispatch_registered env ext rfl _).trans ?_
      change handleConditionArpCacheLwip ext ifname ([kArpConditionAddStatic] ++ (putBe16 0 ++
        (bytes32 entryIpBe ++ entryMac.toList))) = _
      rw [handleConditionArpCacheLwip, applyArpStaticEntry_add]
      rfl
    | posix ifname clientMacs =>
      refine (dispatch_registered env ext rfl _).trans ?_
      change handleConditionArpCachePosix ext ifname ([kArpConditionAddStatic] ++ (putBe16 0 ++
        (bytes32 entryIpBe ++ entryMac.toList))) = _
      rw [handleConditionArpCachePosix, applyArpStaticEntry_add]
      rfl
  | arpRemoveStatic entryIpBe =>
    cases platform with
    | lwip ifname =>
      refine (dispatch_registered env ext rfl _).trans ?_
      change handleConditionArpCacheLwip ext ifname ([kArpConditionRemoveStatic] ++ (putBe16 0 ++
        bytes32 entryIpBe)) = _
      rw [handleConditionArpCacheLwip, applyArpStaticEntry_remove]
      rfl
    | posix ifname clientMacs =>
      refine (dispatch_registered env ext rfl _).trans ?_
      change handleConditionArpCachePosix ext ifname ([kArpConditionRemoveStatic] ++ (putBe16 0 ++
        bytes32 entryIpBe)) = _
      rw [handleConditionArpCachePosix, applyArpStaticEntry_remove]
      rfl
  | conditionArpCache action param =>
    cases platform with
    | lwip ifname =>
      exact (dispatch_registered env ext rfl _).trans
        (handleConditionArpCacheLwip_action ext ifname action param)
    | posix ifname clientMacs =>
      refine (dispatch_registered env ext rfl _).trans ?_
      change handleConditionArpCachePosix ext ifname ([action] ++ putBe16 param) = _
      rw [handleConditionArpCachePosix, applyArpStaticEntry_action, pure_bind]
      split_ifs <;> rfl
  | setFlavor target flavor =>
    cases platform with
    | lwip ifname =>
      cases target with
      | egress => exact (dispatch_registered env ext rfl _).trans (handleSetFlavor_params _ _ flavor)
      | ingress => exact (dispatch_registered env ext rfl _).trans (handleSetFlavor_params _ _ flavor)
      | app => exact (dispatch_registered env ext rfl _).trans (handleSetFlavor_params _ _ flavor)
      | ets => exact dispatch_unknown env ext rfl rfl _
    | posix ifname clientMacs =>
      cases target with
      | egress => exact dispatch_unknown env ext rfl rfl _
      | ingress => exact dispatch_unknown env ext rfl rfl _
      | app => exact dispatch_unknown env ext rfl rfl _
      | ets => exact (dispatch_registered env ext rfl _).trans (handleSetFlavor_params _ _ flavor)

end Platforms

end Tc8Harness.UpperTester
