import Tc8Harness.Testability.Requests

/-!
# The tester's requests

The request encoders of `src/testability_client/testability_client.cpp`, each as the service primitive
and the parameters it hands to `testabilityCall`, and what the server's handlers read of them
(`wire_round_trip`). A field is read at the offset it was appended at, whatever was appended after it:
the messages are taken apart by prefixes.
-/

namespace Tc8Harness.Testability

open BigEndian Wire Someip

/-! ## Encoders -/

/-- The arguments of `testabilityCall`. -/
structure Call where
  gid : UInt8
  pid : UInt8
  dat : List UInt8
  deriving DecidableEq, Repr

/-- The message `testabilityCall` sends. -/
def Call.message (call : Call) (serviceId : UInt16) : List UInt8 :=
  buildMessage
    { serviceId, methodId := methodId call.gid call.pid, tid := kTidRequest, rid := kRidEOk } call.dat

def testabilityEndTest (tcId : UInt16) (tsName : List UInt8) : Call :=
  ⟨kGidGeneral, kPidEndTest, appendText (appendU16 [] tcId) tsName⟩

def testabilityCreateAndBind (gid : UInt8) (doBind : Bool) (localPort : UInt16) (localAddrBe : UInt32) :
    Call :=
  ⟨gid, kPidCreateAndBind,
    appendIpv4Addr (appendU16 [if doBind then 0x01 else 0x00] localPort) localAddrBe⟩

def testabilityUdpSendData (socketId totalLen destPort : UInt16) (destAddrBe : UInt32)
    (data : List UInt8) : Call :=
  ⟨kGidUdp, kPidSendData,
    appendVint8 (appendIpv4Addr (appendU16 (appendU16 (appendU16 [] socketId) totalLen) destPort)
      destAddrBe) data⟩

def testabilityTcpConnect (socketId destPort : UInt16) (destAddrBe : UInt32) : Call :=
  ⟨kGidTcp, kPidConnect, appendIpv4Addr (appendU16 (appendU16 [] socketId) destPort) destAddrBe⟩

def testabilityTcpSendData (socketId totalLen : UInt16) (flags : UInt8) (data : List UInt8) : Call :=
  ⟨kGidTcp, kPidSendData,
    appendVint8 (appendU16 (appendU16 [] socketId) totalLen ++ [flags]) data⟩

def testabilityEchoRequest (iface : List UInt8) (destAddrBe : UInt32) (payload : List UInt8) : Call :=
  ⟨kGidIcmp, kPidEchoRequest,
    appendVint8 (appendIpv4Addr (appendText [] iface) destAddrBe) payload⟩

def testabilityEchoRequestV6 (iface : List UInt8) (destAddr16 : Vector UInt8 16)
    (payload : List UInt8) : Call :=
  ⟨kGidIcmpv6, kPidEchoRequest,
    appendVint8 (appendIpv6Addr (appendText [] iface) destAddr16) payload⟩

def testabilityInterfaceUp (iface : List UInt8) : Call :=
  ⟨kGidEth, kPidInterfaceUp, appendText [] iface⟩

def testabilityInterfaceDown (iface : List UInt8) : Call :=
  ⟨kGidEth, kPidInterfaceDown, appendText [] iface⟩

def testabilityStaticAddress (iface : List UInt8) (addrBe : UInt32) (cidr : UInt8) : Call :=
  ⟨kGidIp, kPidStaticAddress, appendIpv4Addr (appendText [] iface) addrBe ++ [cidr]⟩

def testabilityStaticRoute (iface : List UInt8) (subnetBe : UInt32) (cidr : UInt8)
    (gatewayBe : UInt32) : Call :=
  ⟨kGidIp, kPidStaticRoute,
    appendIpv4Addr (appendIpv4Addr (appendText [] iface) subnetBe ++ [cidr]) gatewayBe⟩

def testabilityStaticAddressV6 (iface : List UInt8) (addr16 : Vector UInt8 16) (pfxLen : UInt8) :
    Call :=
  ⟨kGidIpv6, kPidStaticAddress, appendIpv6Addr (appendText [] iface) addr16 ++ [pfxLen]⟩

def testabilityStaticRouteV6 (iface : List UInt8) (subnet16 : Vector UInt8 16) (pfxLen : UInt8)
    (gateway16 : Vector UInt8 16) : Call :=
  ⟨kGidIpv6, kPidStaticRoute,
    appendIpv6Addr (appendIpv6Addr (appendText [] iface) subnet16 ++ [pfxLen]) gateway16⟩

/-- The abort byte is sent only where it is set. -/
def closeSocketCall (gid : UInt8) (socketId : UInt16) (abort : Bool) : Call :=
  ⟨gid, kPidCloseSocket, appendU16 [] socketId ++ if abort then [1] else []⟩

def testabilityCloseSocket (gid : UInt8) (socketId : UInt16) : Call := closeSocketCall gid socketId false

def testabilityAbortSocket (gid : UInt8) (socketId : UInt16) : Call := closeSocketCall gid socketId true

def testabilityShutdown (gid : UInt8) (socketId : UInt16) (typeId : UInt8) : Call :=
  ⟨gid, kPidShutdown, appendU16 [] socketId ++ [typeId]⟩

def testabilityConfigureSocket (gid : UInt8) (socketId paramId : UInt16) (value : List UInt8) : Call :=
  ⟨gid, kPidConfigureSocket, appendVint8 (appendU16 (appendU16 [] socketId) paramId) value⟩

/-- The request of `testabilityTcpListen` and of `testabilityTcpListenAndAccept`. -/
def testabilityTcpListen (listenSocketId maxCon : UInt16) : Call :=
  ⟨kGidTcp, kPidListenAndAccept, appendU16 (appendU16 [] listenSocketId) maxCon⟩

/-- The request of `testabilityReceiveAndForward`; `testabilityReceiveDatagrams` sends the same on the
UDP group with no byte limit. -/
def testabilityReceiveAndForwardRequest (gid : UInt8) (socketId maxFwd maxLen : UInt16) : Call :=
  ⟨gid, kPidReceiveAndForward, appendU16 (appendU16 (appendU16 [] socketId) maxFwd) maxLen⟩

/-! ## Collecting Events -/

structure SpEvent where
  rid : UInt8
  dat : List UInt8
  deriving DecidableEq, Repr

/-- One datagram received on an armed socket, taken for an Event of the primitive. -/
def recvSpEventWithRid (datagram : List UInt8) (gid pid : UInt8) : Option SpEvent :=
  let buf := datagram.take 65535
  match parseHeader buf with
  | none => none
  | some evh =>
    if evh.tid ≠ kTidEvent ∨ isEvent evh.methodId = false ∨ gidOf evh.methodId ≠ gid ∨
        pidOf evh.methodId ≠ pid then none
    else some ⟨evh.rid, buf.drop kHeaderSize⟩

structure ArmedSocket where
  armed : Bool := false
  responded : Bool := false
  rid : UInt8 := 0
  respDat : List UInt8 := []
  deriving DecidableEq, Repr

/-- `armEventSocket` with the datagram that came back, `none` where none did. -/
def armEventSocket (response : Option (List UInt8)) (gid pid : UInt8) : ArmedSocket :=
  let buf := (response.getD []).take 2048
  match parseHeader buf with
  | none => {}
  | some resp =>
    if resp.tid ≠ kTidResponse ∨ gidOf resp.methodId ≠ gid ∨ pidOf resp.methodId ≠ pid then {}
    else if resp.rid ≠ kRidEOk then { responded := true, rid := resp.rid }
    else { armed := true, responded := true, rid := resp.rid, respDat := buf.drop kHeaderSize }

inductive TestabilityForwardEnd where
  | kNone
  | kPeerClosed
  | kReset
  | kError
  deriving DecidableEq, Repr

structure TestabilityForwardResult where
  ok : Bool := false
  stop : TestabilityForwardEnd := .kNone
  endRid : UInt8 := 0
  responded : Bool := false
  rid : UInt8 := 0
  dropCnt : UInt16 := 0
  fullLen : UInt16 := 0
  payload : List UInt8 := []
  deriving DecidableEq, Repr

/-- What an Event with data adds to the result. -/
def TestabilityForwardResult.gather (res : TestabilityForwardResult) (dat : List UInt8) :
    TestabilityForwardResult :=
  { res with
    fullLen := res.fullLen + readU16 dat 0
    payload := res.payload ++ match readVint8 dat 2 with
      | none => []
      | some (body, _) => body }

/-- The loop of `testabilityReceiveAndForward` over the datagrams that arrive before the deadline; when
there is none left, the receive times out. -/
def collectForward (maxLen : UInt16) : List (List UInt8) → Bool → TestabilityForwardResult →
    TestabilityForwardResult
  | [], _, res => res
  | datagram :: datagrams, first, res =>
    if (if maxLen = 0xFFFF then first else res.payload.length < maxLen.toNat : Bool) = false then res
    else
      match recvSpEventWithRid datagram kGidTcp kPidReceiveAndForward with
      | none => res
      | some ev =>
        if ev.rid ≠ kRidEOk then
          { res with
            endRid := ev.rid
            stop := if ev.rid = kRidETcpCre then .kReset
              else if ev.rid = kRidETcpCoc then .kPeerClosed else .kError }
        else if ev.dat.length < 2 then res
        else collectForward maxLen datagrams false (res.gather ev.dat)

/-- The tester's side of a forward: the Response to the arm and the datagrams that follow it. -/
def testabilityReceiveAndForward (maxLen : UInt16) (response : Option (List UInt8))
    (datagrams : List (List UInt8)) : TestabilityForwardResult :=
  let arm := armEventSocket response kGidTcp kPidReceiveAndForward
  let res : TestabilityForwardResult :=
    { ok := arm.armed, responded := arm.responded, rid := arm.rid
      dropCnt := if arm.respDat.length ≥ 2 then readU16 arm.respDat 0 else 0 }
  if arm.armed = false then res else collectForward maxLen datagrams true res

/-! ## Fields of a longer message -/

section Fields

variable {pre dat : List UInt8} {off : Nat}

theorem readU16_at {v : UInt16} (h : appendU16 pre v <+: dat) (hoff : pre.length = off) :
    readU16 dat off = v := by
  obtain ⟨rest, rfl⟩ := h
  rw [← hoff]
  exact readU16_appendU16 v

theorem readVint8_at {p : List UInt8} (h : appendVint8 pre p <+: dat) (hoff : pre.length = off)
    (hp : p.length ≤ 65535) : readVint8 dat off = some (p, (appendVint8 pre p).length) := by
  obtain ⟨rest, rfl⟩ := h
  rw [← hoff]
  exact readVint8_appendVint8 hp

theorem readText_at {text : List UInt8} (h : appendText pre text <+: dat) (hoff : pre.length = off)
    (ht : text.length ≤ 65531) : readText dat off = some (text, (appendText pre text).length) := by
  obtain ⟨rest, rfl⟩ := h
  rw [← hoff]
  exact readText_appendText ht

theorem readIpv4Addr_at {addr : UInt32} (h : appendIpv4Addr pre addr <+: dat)
    (hoff : pre.length = off) :
    readIpv4Addr dat off = some (bytes32 addr, (appendIpv4Addr pre addr).length) := by
  have hlen : (bytes32 addr).length = 4 := length_bytes32 addr
  rw [readIpv4Addr, readVint8_at h hoff (by rw [hlen]; decide)]
  simp only [hlen, ne_eq, not_true_eq_false, if_false]
  rfl

theorem readIpv6Addr_at {addr : Vector UInt8 16} (h : appendIpv6Addr pre addr <+: dat)
    (hoff : pre.length = off) :
    readIpv6Addr dat off = some (addr.toList, (appendIpv6Addr pre addr).length) := by
  have hlen : addr.toList.length = 16 := by simp
  rw [readIpv6Addr, readVint8_at h hoff (by rw [hlen]; decide)]
  simp only [hlen, ne_eq, not_true_eq_false, if_false]
  rfl

theorem readMask_at {mask : UInt8} (h : pre ++ [mask] <+: dat) (hoff : pre.length = off) :
    readMask dat off = some mask := by
  obtain ⟨rest, rfl⟩ := h
  rw [← hoff, readMask, if_neg (by simp), List.append_assoc, List.getD_append_right _ _ _ _ (le_refl _)]
  simp

theorem prefix_appendU16 (v : UInt16) : pre <+: appendU16 pre v := List.prefix_append ..

theorem prefix_appendVint8 (p : List UInt8) : pre <+: appendVint8 pre p := List.prefix_append ..

theorem prefix_appendIpv4Addr (addr : UInt32) : pre <+: appendIpv4Addr pre addr :=
  List.prefix_append ..

theorem prefix_appendIpv6Addr (addr : Vector UInt8 16) : pre <+: appendIpv6Addr pre addr :=
  List.prefix_append ..

end Fields

/-! ## Parameters read back -/

theorem copy32_addr (addr : UInt32) : copy32 (bytes32 addr) 0 = addr := by
  have h := copy32_bytes32 addr []
  rwa [List.append_nil] at h

theorem bindAddr_bytes32 (addr : UInt32) : ProtocolServer.bindAddr (bytes32 addr) = addr := by
  rw [ProtocolServer.bindAddr, if_pos (length_bytes32 addr), copy32_addr]
  split
  · next hall =>
    have hbytes : bytes32 addr = [0, 0, 0, 0] :=
      List.eq_replicate_iff.mpr ⟨length_bytes32 addr, by simpa using hall⟩
    rw [← copy32_addr addr, hbytes]
    rfl
  · rfl

theorem endpointFromWire_bytes32 (addr : UInt32) (port : UInt16) :
    endpointFromWire (bytes32 addr) port = ⟨addr, port⟩ := by
  rw [endpointFromWire, copy32_addr]

theorem parse_createAndBind (gid : UInt8) (doBind : Bool) (localPort : UInt16) (localAddrBe : UInt32) :
    parseCreateAndBind (testabilityCreateAndBind gid doBind localPort localAddrBe).dat =
      some ⟨doBind, localPort, bytes32 localAddrBe⟩ := by
  have hlen : (bytes32 localAddrBe).length = 4 := length_bytes32 localAddrBe
  have hport : readU16 (testabilityCreateAndBind gid doBind localPort localAddrBe).dat 1 = localPort :=
    readU16_at (prefix_appendIpv4Addr localAddrBe) rfl
  have haddr : readVint8 (testabilityCreateAndBind gid doBind localPort localAddrBe).dat 3 = _ :=
    readVint8_at (List.prefix_refl _) rfl (by rw [hlen]; decide)
  have hbind : (testabilityCreateAndBind gid doBind localPort localAddrBe).dat.getD 0 0 =
      if doBind then 0x01 else 0x00 := rfl
  rw [parseCreateAndBind, if_neg (by simp [testabilityCreateAndBind, appendIpv4Addr, hlen]), haddr]
  simp only [hlen, hport, hbind]
  cases doBind <;> rfl

theorem parse_udpSendData (socketId totalLen destPort : UInt16) (destAddrBe : UInt32)
    {data : List UInt8} (hdata : data.length ≤ 65535) :
    parseSendDataUdp (testabilityUdpSendData socketId totalLen destPort destAddrBe data).dat =
      some ⟨socketId, totalLen, ⟨destAddrBe, destPort⟩, data⟩ := by
  generalize hdat : (testabilityUdpSendData socketId totalLen destPort destAddrBe data).dat = dat
  have hall : appendVint8 (appendIpv4Addr (appendU16 (appendU16 (appendU16 [] socketId) totalLen)
      destPort) destAddrBe) data <+: dat := by rw [← hdat]; rfl
  have haddr := (prefix_appendVint8 data).trans hall
  have hport := (prefix_appendIpv4Addr destAddrBe).trans haddr
  have htotal := (prefix_appendU16 destPort).trans hport
  have hsocket := (prefix_appendU16 totalLen).trans htotal
  have hlen : ¬ dat.length < 2 + 2 + 2 := by
    have hle := hport.length_le
    simp at hle
    omega
  have hreadAddr : readIpv4Addr dat 6 = _ := readIpv4Addr_at haddr (by simp)
  have hreadPort : readU16 dat 4 = destPort := readU16_at hport (by simp)
  have hreadTotal : readU16 dat 2 = totalLen := readU16_at htotal (by simp)
  have hreadSocket : readU16 dat 0 = socketId := readU16_at hsocket rfl
  have hreadData := readVint8_at hall rfl hdata
  rw [parseSendDataUdp, if_neg hlen, hreadAddr, hreadPort, hreadTotal, hreadSocket]
  simp only [Option.bind_eq_bind, Option.bind_some, hreadData, endpointFromWire_bytes32]
  rfl

theorem parse_tcpConnect (socketId destPort : UInt16) (destAddrBe : UInt32) :
    parseConnectTcp (testabilityTcpConnect socketId destPort destAddrBe).dat =
      some ⟨socketId, ⟨destAddrBe, destPort⟩⟩ := by
  generalize hdat : (testabilityTcpConnect socketId destPort destAddrBe).dat = dat
  have hport : appendU16 (appendU16 [] socketId) destPort <+: dat := by
    rw [← hdat]
    exact prefix_appendIpv4Addr destAddrBe
  have hsocket := (prefix_appendU16 destPort).trans hport
  have hlen : ¬ dat.length < 2 + 2 := by
    have hle := hport.length_le
    simp at hle
    omega
  have hreadAddr : readIpv4Addr dat 4 = _ :=
    readIpv4Addr_at (by rw [← hdat]; exact List.prefix_refl _) (by simp)
  have hreadPort : readU16 dat 2 = destPort := readU16_at hport (by simp)
  have hreadSocket : readU16 dat 0 = socketId := readU16_at hsocket rfl
  rw [parseConnectTcp, if_neg hlen, hreadAddr, hreadPort, hreadSocket]
  simp only [Option.bind_eq_bind, Option.bind_some, endpointFromWire_bytes32]
  rfl

theorem parse_tcpSendData (socketId totalLen : UInt16) (flags : UInt8) {data : List UInt8}
    (hdata : data.length ≤ 65535) :
    parseSendDataTcp (testabilityTcpSendData socketId totalLen flags data).dat =
      some ⟨socketId, totalLen, flags, data⟩ := by
  generalize hdat : (testabilityTcpSendData socketId totalLen flags data).dat = dat
  have hflags : appendU16 (appendU16 [] socketId) totalLen ++ [flags] <+: dat := by
    rw [← hdat]
    exact prefix_appendVint8 data
  have htotal := (List.prefix_append _ [flags]).trans hflags
  have hsocket := (prefix_appendU16 totalLen).trans htotal
  have hlen : ¬ dat.length < 2 + 2 + 1 := by
    have hle := hflags.length_le
    simp at hle
    omega
  have hflag : dat.getD 4 0 = flags := by
    have hmask := readMask_at hflags rfl
    unfold readMask at hmask
    split at hmask
    · nomatch hmask
    · exact Option.some.inj hmask
  have hreadData : readVint8 dat 5 = _ :=
    readVint8_at (by rw [← hdat]; exact List.prefix_refl _) (by simp) hdata
  have hreadTotal : readU16 dat 2 = totalLen := readU16_at htotal (by simp)
  have hreadSocket : readU16 dat 0 = socketId := readU16_at hsocket rfl
  rw [parseSendDataTcp, if_neg hlen, hreadData, hreadTotal, hreadSocket, hflag]
  rfl

theorem parse_tcpListen (listenSocketId maxCon : UInt16) :
    parseListenAndAcceptTcp (testabilityTcpListen listenSocketId maxCon).dat =
      some ⟨listenSocketId, maxCon⟩ := by
  generalize hdat : (testabilityTcpListen listenSocketId maxCon).dat = dat
  have hcon : appendU16 (appendU16 [] listenSocketId) maxCon <+: dat := by rw [← hdat]; rfl
  have hreadSocket : readU16 dat 0 = listenSocketId :=
    readU16_at ((prefix_appendU16 maxCon).trans hcon) rfl
  have hreadCon : readU16 dat 2 = maxCon := readU16_at hcon (by simp)
  have hlen : dat.length = 4 := by rw [← hdat]; simp [testabilityTcpListen]
  rw [parseListenAndAcceptTcp, if_neg (by omega), hreadSocket, hreadCon]

theorem parse_closeSocket (gid : UInt8) (socketId : UInt16) (abort : Bool) :
    parseCloseSocket (closeSocketCall gid socketId abort).dat = some ⟨socketId, abort⟩ := by
  have hreadSocket : readU16 (closeSocketCall gid socketId abort).dat 0 = socketId :=
    readU16_at (List.prefix_append ..) rfl
  rw [parseCloseSocket, if_neg (by cases abort <;> simp [closeSocketCall]), hreadSocket]
  cases abort <;> rfl

theorem parse_shutdown (gid : UInt8) (socketId : UInt16) (typeId : UInt8) :
    parseShutdownSocket (testabilityShutdown gid socketId typeId).dat = some ⟨socketId, typeId⟩ := by
  have hreadSocket : readU16 (testabilityShutdown gid socketId typeId).dat 0 = socketId :=
    readU16_at (List.prefix_append ..) rfl
  rw [parseShutdownSocket, if_neg (by simp [testabilityShutdown]), hreadSocket]
  rfl

theorem parse_configureSocket (gid : UInt8) (socketId paramId : UInt16) {value : List UInt8}
    (hvalue : value.length ≤ 65535) :
    parseConfigureSocket (testabilityConfigureSocket gid socketId paramId value).dat =
      some ⟨socketId, paramId, value⟩ := by
  generalize hdat : (testabilityConfigureSocket gid socketId paramId value).dat = dat
  have hparam : appendU16 (appendU16 [] socketId) paramId <+: dat := by
    rw [← hdat]
    exact prefix_appendVint8 value
  have hsocket := (prefix_appendU16 paramId).trans hparam
  have hlen : ¬ dat.length < 2 + 2 := by
    have hle := hparam.length_le
    simp at hle
    omega
  have hreadValue : readVint8 dat 4 = _ :=
    readVint8_at (by rw [← hdat]; exact List.prefix_refl _) (by simp) hvalue
  have hreadParam : readU16 dat 2 = paramId := readU16_at hparam (by simp)
  have hreadSocket : readU16 dat 0 = socketId := readU16_at hsocket rfl
  rw [parseConfigureSocket, if_neg hlen, hreadValue, hreadParam, hreadSocket]
  rfl

theorem parse_receiveAndForward (gid : UInt8) (socketId maxFwd maxLen : UInt16) :
    parseReceiveAndForward (testabilityReceiveAndForwardRequest gid socketId maxFwd maxLen).dat =
      some ⟨socketId, maxFwd, maxLen⟩ := by
  generalize hdat : (testabilityReceiveAndForwardRequest gid socketId maxFwd maxLen).dat = dat
  have hmaxLen : appendU16 (appendU16 (appendU16 [] socketId) maxFwd) maxLen <+: dat := by
    rw [← hdat]
    rfl
  have hfwd := (prefix_appendU16 maxLen).trans hmaxLen
  have hreadSocket : readU16 dat 0 = socketId := readU16_at ((prefix_appendU16 maxFwd).trans hfwd) rfl
  have hreadFwd : readU16 dat 2 = maxFwd := readU16_at hfwd (by simp)
  have hreadLen : readU16 dat 4 = maxLen := readU16_at hmaxLen (by simp)
  have hlen : dat.length = 6 := by rw [← hdat]; simp [testabilityReceiveAndForwardRequest]
  rw [parseReceiveAndForward, if_neg (by omega), hreadSocket, hreadFwd, hreadLen]

section Iface

variable {s : ProtocolServer} {a : Answers} {iface : List UInt8} (hiface : iface.length ≤ 65531)
include hiface

open ProtocolServer

/-- The reads that the interface primitives begin with. -/
theorem readIface {dat : List UInt8} (h : appendText [] iface <+: dat) :
    readText dat 0 = some (iface, (appendText [] iface).length) := readText_at h rfl hiface

theorem handle_echoRequest (destAddrBe : UInt32) {payload : List UInt8}
    (hpayload : payload.length ≤ 65535) :
    s.echoRequest a (testabilityEchoRequest iface destAddrBe payload).dat =
      (s.act (.sendIcmpEcho iface destAddrBe (buildIcmpEchoRequestBody 0 1 payload)), a.rid) := by
  generalize hdat : (testabilityEchoRequest iface destAddrBe payload).dat = dat
  have hall : appendVint8 (appendIpv4Addr (appendText [] iface) destAddrBe) payload <+: dat := by
    rw [← hdat]; rfl
  have haddr := (prefix_appendVint8 payload).trans hall
  have hparse : parseEchoRequest dat = some ⟨iface, bytes32 destAddrBe, payload⟩ := by
    simp only [parseEchoRequest, parseEcho, readIface hiface ((prefix_appendIpv4Addr _).trans haddr),
      readIpv4Addr_at haddr rfl, readVint8_at hall rfl hpayload, Option.bind_eq_bind, Option.bind_some]
    rfl
  simp only [echoRequest, hparse, copy32_addr]

theorem handle_echoRequestV6 (destAddr16 : Vector UInt8 16) {payload : List UInt8}
    (hpayload : payload.length ≤ 65535) :
    s.echoRequestV6 a (testabilityEchoRequestV6 iface destAddr16 payload).dat =
      (s.act (.sendIcmpv6Echo iface destAddr16.toList (buildIcmpv6EchoRequestBody 0 1 payload)),
        a.rid) := by
  generalize hdat : (testabilityEchoRequestV6 iface destAddr16 payload).dat = dat
  have hall : appendVint8 (appendIpv6Addr (appendText [] iface) destAddr16) payload <+: dat := by
    rw [← hdat]; rfl
  have haddr := (prefix_appendVint8 payload).trans hall
  have hparse : parseEchoRequestV6 dat = some ⟨iface, destAddr16.toList, payload⟩ := by
    simp only [parseEchoRequestV6, parseEcho,
      readIface hiface ((prefix_appendIpv6Addr _).trans haddr), readIpv6Addr_at haddr rfl,
      readVint8_at hall rfl hpayload, Option.bind_eq_bind, Option.bind_some]
    rfl
  simp only [echoRequestV6, hparse]

omit hiface in
/-- END_TEST clears the server's tables whatever test it names. -/
theorem dispatch_endTest (tcId : UInt16) (tsName : List UInt8) (peer : Endpoint) {req : Header}
    (hreq : req.methodId =
      methodId (testabilityEndTest tcId tsName).gid (testabilityEndTest tcId tsName).pid) :
    s.dispatch a req (testabilityEndTest tcId tsName).dat peer =
      (s.stopAllWorkers.closeAllSockets, kRidEOk, []) := by
  have hgid : gidOf req.methodId = kGidGeneral := by
    rw [hreq, gidOf_methodId]
    exact UInt8.zero_and
  have hpid : pidOf req.methodId = kPidEndTest := by
    rw [hreq, pidOf_methodId]
    rfl
  unfold dispatch
  rw [hgid, hpid]
  rfl

theorem handle_setInterface (up : Bool) :
    s.setInterface a (if up then testabilityInterfaceUp iface else testabilityInterfaceDown iface).dat
      up = (s.act (.setInterfaceUp iface up), a.rid) := by
  have hdat : (if up then testabilityInterfaceUp iface else testabilityInterfaceDown iface).dat =
      appendText [] iface := by cases up <;> rfl
  simp only [setInterface, parseSetInterface, hdat, readIface hiface (List.prefix_refl _),
    Option.bind_eq_bind, Option.bind_some]
  rfl

theorem handle_staticAddress (addrBe : UInt32) (cidr : UInt8) :
    s.staticAddress a (testabilityStaticAddress iface addrBe cidr).dat =
      (s.act (.setStaticAddressV4 iface addrBe cidr), a.rid) := by
  generalize hdat : (testabilityStaticAddress iface addrBe cidr).dat = dat
  have hall : appendIpv4Addr (appendText [] iface) addrBe ++ [cidr] <+: dat := by rw [← hdat]; rfl
  have haddr := (List.prefix_append _ [cidr]).trans hall
  have hparse : parseStaticAddress dat = some ⟨iface, bytes32 addrBe, cidr⟩ := by
    simp only [parseStaticAddress, parseAddress,
      readIface hiface ((prefix_appendIpv4Addr _).trans haddr), readIpv4Addr_at haddr rfl,
      readMask_at hall rfl, Option.bind_eq_bind, Option.bind_some]
    rfl
  simp only [staticAddress, hparse, copy32_addr]

theorem handle_staticAddressV6 (addr16 : Vector UInt8 16) (pfxLen : UInt8) :
    s.staticAddressV6 a (testabilityStaticAddressV6 iface addr16 pfxLen).dat =
      (s.act (.setStaticAddressV6 iface addr16.toList pfxLen), a.rid) := by
  generalize hdat : (testabilityStaticAddressV6 iface addr16 pfxLen).dat = dat
  have hall : appendIpv6Addr (appendText [] iface) addr16 ++ [pfxLen] <+: dat := by rw [← hdat]; rfl
  have haddr := (List.prefix_append _ [pfxLen]).trans hall
  have hparse : parseStaticAddressV6 dat = some ⟨iface, addr16.toList, pfxLen⟩ := by
    simp only [parseStaticAddressV6, parseAddress,
      readIface hiface ((prefix_appendIpv6Addr _).trans haddr), readIpv6Addr_at haddr rfl,
      readMask_at hall rfl, Option.bind_eq_bind, Option.bind_some]
    rfl
  simp only [staticAddressV6, hparse]

theorem handle_staticRoute (subnetBe : UInt32) (cidr : UInt8) (gatewayBe : UInt32) :
    s.staticRoute a (testabilityStaticRoute iface subnetBe cidr gatewayBe).dat =
      (s.act (.setStaticRouteV4 iface subnetBe cidr gatewayBe), a.rid) := by
  generalize hdat : (testabilityStaticRoute iface subnetBe cidr gatewayBe).dat = dat
  have hall : appendIpv4Addr (appendIpv4Addr (appendText [] iface) subnetBe ++ [cidr]) gatewayBe <+:
      dat := by rw [← hdat]; rfl
  have hmask := (prefix_appendIpv4Addr gatewayBe).trans hall
  have hsubnet := (List.prefix_append _ [cidr]).trans hmask
  have hgateway : readIpv4Addr dat ((appendIpv4Addr (appendText [] iface) subnetBe).length + 1) = _ :=
    readIpv4Addr_at hall (by simp)
  have hparse : parseStaticRoute dat = some ⟨iface, bytes32 subnetBe, cidr, bytes32 gatewayBe⟩ := by
    simp only [parseStaticRoute, parseRoute,
      readIface hiface ((prefix_appendIpv4Addr _).trans hsubnet), readIpv4Addr_at hsubnet rfl,
      readMask_at hmask rfl, hgateway, Option.bind_eq_bind, Option.bind_some]
    rfl
  simp only [staticRoute, hparse, copy32_addr]

theorem handle_staticRouteV6 (subnet16 : Vector UInt8 16) (pfxLen : UInt8)
    (gateway16 : Vector UInt8 16) :
    s.staticRouteV6 a (testabilityStaticRouteV6 iface subnet16 pfxLen gateway16).dat =
      (s.act (.setStaticRouteV6 iface subnet16.toList pfxLen gateway16.toList), a.rid) := by
  generalize hdat : (testabilityStaticRouteV6 iface subnet16 pfxLen gateway16).dat = dat
  have hall : appendIpv6Addr (appendIpv6Addr (appendText [] iface) subnet16 ++ [pfxLen]) gateway16 <+:
      dat := by rw [← hdat]; rfl
  have hmask := (prefix_appendIpv6Addr gateway16).trans hall
  have hsubnet := (List.prefix_append _ [pfxLen]).trans hmask
  have hgateway : readIpv6Addr dat ((appendIpv6Addr (appendText [] iface) subnet16).length + 1) = _ :=
    readIpv6Addr_at hall (by simp)
  have hparse : parseStaticRouteV6 dat =
      some ⟨iface, subnet16.toList, pfxLen, gateway16.toList⟩ := by
    simp only [parseStaticRouteV6, parseRoute,
      readIface hiface ((prefix_appendIpv6Addr _).trans hsubnet), readIpv6Addr_at hsubnet rfl,
      readMask_at hmask rfl, hgateway, Option.bind_eq_bind, Option.bind_some]
    rfl
  simp only [staticRouteV6, hparse]

end Iface

/-! ## The round trip -/

open ProtocolServer in
/-- What the server's handlers make of the client's requests: the parameters of each that is about a
socket, and the backend call of each that is not, with a text and a byte string where it has them. -/
structure Recovered (s : ProtocolServer) (a : Answers) (text data : List UInt8) : Prop where
  createAndBind : ∀ gid doBind localPort localAddrBe,
    parseCreateAndBind (testabilityCreateAndBind gid doBind localPort localAddrBe).dat =
      some ⟨doBind, localPort, bytes32 localAddrBe⟩ ∧ bindAddr (bytes32 localAddrBe) = localAddrBe
  udpSendData : ∀ socketId totalLen destPort destAddrBe,
    parseSendDataUdp (testabilityUdpSendData socketId totalLen destPort destAddrBe data).dat =
      some ⟨socketId, totalLen, ⟨destAddrBe, destPort⟩, data⟩
  tcpSendData : ∀ socketId totalLen flags,
    parseSendDataTcp (testabilityTcpSendData socketId totalLen flags data).dat =
      some ⟨socketId, totalLen, flags, data⟩
  tcpConnect : ∀ socketId destPort destAddrBe,
    parseConnectTcp (testabilityTcpConnect socketId destPort destAddrBe).dat =
      some ⟨socketId, ⟨destAddrBe, destPort⟩⟩
  configureSocket : ∀ gid socketId paramId,
    parseConfigureSocket (testabilityConfigureSocket gid socketId paramId data).dat =
      some ⟨socketId, paramId, data⟩
  shutdown : ∀ gid socketId typeId,
    parseShutdownSocket (testabilityShutdown gid socketId typeId).dat = some ⟨socketId, typeId⟩
  closeSocket : ∀ gid socketId,
    parseCloseSocket (testabilityCloseSocket gid socketId).dat = some ⟨socketId, false⟩ ∧
    parseCloseSocket (testabilityAbortSocket gid socketId).dat = some ⟨socketId, true⟩
  receiveAndForward : ∀ gid socketId maxFwd maxLen,
    parseReceiveAndForward (testabilityReceiveAndForwardRequest gid socketId maxFwd maxLen).dat =
      some ⟨socketId, maxFwd, maxLen⟩
  tcpListen : ∀ listenSocketId maxCon,
    parseListenAndAcceptTcp (testabilityTcpListen listenSocketId maxCon).dat =
      some ⟨listenSocketId, maxCon⟩
  echoRequest : ∀ destAddrBe, s.echoRequest a (testabilityEchoRequest text destAddrBe data).dat =
    (s.act (.sendIcmpEcho text destAddrBe (buildIcmpEchoRequestBody 0 1 data)), a.rid)
  echoRequestV6 : ∀ destAddr16,
    s.echoRequestV6 a (testabilityEchoRequestV6 text destAddr16 data).dat =
      (s.act (.sendIcmpv6Echo text destAddr16.toList (buildIcmpv6EchoRequestBody 0 1 data)), a.rid)
  setInterface : ∀ up : Bool,
    s.setInterface a (if up then testabilityInterfaceUp text else testabilityInterfaceDown text).dat
      up = (s.act (.setInterfaceUp text up), a.rid)
  staticAddress : ∀ addrBe cidr, s.staticAddress a (testabilityStaticAddress text addrBe cidr).dat =
    (s.act (.setStaticAddressV4 text addrBe cidr), a.rid)
  staticRoute : ∀ subnetBe cidr gatewayBe,
    s.staticRoute a (testabilityStaticRoute text subnetBe cidr gatewayBe).dat =
      (s.act (.setStaticRouteV4 text subnetBe cidr gatewayBe), a.rid)
  staticAddressV6 : ∀ addr16 pfxLen,
    s.staticAddressV6 a (testabilityStaticAddressV6 text addr16 pfxLen).dat =
      (s.act (.setStaticAddressV6 text addr16.toList pfxLen), a.rid)
  staticRouteV6 : ∀ subnet16 pfxLen gateway16,
    s.staticRouteV6 a (testabilityStaticRouteV6 text subnet16 pfxLen gateway16).dat =
      (s.act (.setStaticRouteV6 text subnet16.toList pfxLen gateway16.toList), a.rid)

/-- **The wire round trip.** A message reads back as its header with the length of the message and its
parameters; a text and a byte string read back wherever they stand, with the offset behind them; and the
server's handlers recover what the client's requests encode. -/
theorem wire_round_trip (h : Header) (dat pre rest text data : List UInt8) (s : ProtocolServer)
    (a : Answers) (htext : text.length ≤ 65531) (hdata : data.length ≤ 65535) :
    (parseHeader (buildMessage h dat) = some { h with length := 8 + UInt32.ofNat dat.length } ∧
      (buildMessage h dat).drop 16 = dat) ∧
    readText (appendText pre text ++ rest) pre.length = some (text, (appendText pre text).length) ∧
    readVint8 (appendVint8 pre data ++ rest) pre.length = some (data, (appendVint8 pre data).length) ∧
    Recovered s a text data := by
  refine ⟨⟨parseHeader_buildMessage h dat, drop_buildMessage h dat⟩, readText_appendText htext,
    readVint8_appendVint8 hdata, ?_⟩
  exact
    { createAndBind := fun _ _ _ addr => ⟨parse_createAndBind .., bindAddr_bytes32 addr⟩
      udpSendData := fun _ _ _ _ => parse_udpSendData _ _ _ _ hdata
      tcpSendData := fun _ _ _ => parse_tcpSendData _ _ _ hdata
      tcpConnect := parse_tcpConnect
      configureSocket := fun _ _ _ => parse_configureSocket _ _ _ hdata
      shutdown := parse_shutdown
      closeSocket := fun gid id => ⟨parse_closeSocket gid id false, parse_closeSocket gid id true⟩
      receiveAndForward := parse_receiveAndForward
      tcpListen := parse_tcpListen
      echoRequest := fun _ => handle_echoRequest htext _ hdata
      echoRequestV6 := fun _ => handle_echoRequestV6 htext _ hdata
      setInterface := handle_setInterface htext
      staticAddress := handle_staticAddress htext
      staticRoute := handle_staticRoute htext
      staticAddressV6 := handle_staticAddressV6 htext
      staticRouteV6 := handle_staticRouteV6 htext }

/-- A text that starts with a BOM and ends in a NUL. -/
theorem wire_round_trip_bom :
    readText (appendText [7] [0xEF, 0xBB, 0xBF, 0x61, 0x00] ++ [9]) 1 =
      some ([0xEF, 0xBB, 0xBF, 0x61, 0x00], 12) ∧
    Recovered (ProtocolServer.start 3) {} [0xEF, 0xBB, 0xBF, 0x61, 0x00] [1, 2, 3] := by
  obtain ⟨-, htext, -, hrecovered⟩ := wire_round_trip {} [] [7] [9] [0xEF, 0xBB, 0xBF, 0x61, 0x00]
    [1, 2, 3] (ProtocolServer.start 3) {} (by decide) (by decide)
  exact ⟨htext, hrecovered⟩

end Tc8Harness.Testability
