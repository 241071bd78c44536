import Tc8Harness.Dissect.SomeIp
import Tc8Harness.Verdict.RunStats

/-!
# The packet pipeline

`src/harness/packet_pipeline.cpp`: one captured frame through the decoders to the case's listener, and
the counters it leaves behind. The case's own code is a pair of handlers over a state `σ`; each call
may return or throw. The TCP stream follower is a library outside this repository: `FollowerRun` is
what one call of it may do, namely hand stream data to the pipeline's callback, finish, or throw, an
exception of the callback passing through it.

A computation of the pipeline is a state transformer with exceptions (`M`), as the source has it:
`processFrame` is the only place that catches. Every call of the case's code is recorded in `calls`,
which starts over with each frame.
-/

namespace Tc8Harness.Dissect

open Wire

/-! ## Events -/

structure Dot1QTag where
  present : Bool := false
  tpid : UInt16 := 0
  pcp : UInt8 := 0
  dei : Bool := false
  vid : UInt16 := 0

/-- The fields of the carrying IPv4 header that every transport frame copies. -/
structure Ipv4Envelope where
  ipTos : UInt8
  ipTtl : UInt8
  ipIdentification : UInt16
  ipFlags : UInt8
  ipFragmentOffset : UInt16

structure ArpFrame where
  arp : ArpPacket
  ethSrc : List UInt8
  ethDst : List UInt8
  observedTsUs : Int
  vlan : Dot1QTag

structure Icmpv4Frame where
  srcIp : UInt32
  dstIp : UInt32
  icmp : Icmpv4Message
  observedTsUs : Int
  vlan : Dot1QTag

structure Ipv4Frame where
  version : UInt8
  ihl : UInt8
  tos : UInt8
  totalLength : UInt16
  identification : UInt16
  flags : UInt8
  fragmentOffset : UInt16
  ttl : UInt8
  protocol : UInt8
  headerChecksum : UInt16
  srcAddr : UInt32
  dstAddr : UInt32
  observedTsUs : Int
  vlan : Dot1QTag

structure UdpFrame where
  envelope : Ipv4Envelope
  srcIp : UInt32
  dstIp : UInt32
  udp : UdpDatagram
  ethSrc : List UInt8
  ethDst : List UInt8
  observedTsUs : Int
  vlan : Dot1QTag

structure Dhcpv4Frame where
  envelope : Ipv4Envelope
  ethSrc : List UInt8
  ethDst : List UInt8
  srcIp : UInt32
  dstIp : UInt32
  srcPort : UInt16
  dstPort : UInt16
  op : UInt8
  htype : UInt8
  hlen : UInt8
  hops : UInt8
  xid : UInt32
  secs : UInt16
  flags : UInt16
  ciaddr : UInt32
  yiaddr : UInt32
  siaddr : UInt32
  giaddr : UInt32
  chaddr : List UInt8
  magicCookieValid : Bool
  messageType : Option UInt8
  lastOptionIsEnd : Bool
  options : List UInt8
  observedTsUs : Int
  vlan : Dot1QTag

structure TcpFrame where
  envelope : Ipv4Envelope
  srcIp : UInt32
  dstIp : UInt32
  tcp : TcpSegment
  mss : UInt16
  checksumValid : Bool
  observedTsUs : Int
  vlan : Dot1QTag

inductive CapturedEvent where
  | arp (f : ArpFrame)
  | icmpv4 (f : Icmpv4Frame)
  | ipv4 (f : Ipv4Frame)
  | udp (f : UdpFrame)
  | dhcpv4 (f : Dhcpv4Frame)
  | tcp (f : TcpFrame)
  | someIp (f : SomeIpFrame)

def ipv4EnvelopeFrom (ip : Ipv4Header) : Ipv4Envelope :=
  ⟨ip.tos, ip.ttl, ip.identification, ip.flags, ip.fragmentOffset⟩

def dot1qTagFrom (eth : EthernetFrame) : Dot1QTag :=
  match eth.dot1q with
  | none => {}
  | some tag =>
    { present := true, tpid := kEtherTypeDot1Q, pcp := tag.pcp, dei := tag.dei, vid := tag.vid }

/-! ## The case's code, the follower, and the state -/

/-- What a call threw: a `std::exception` with its text, or anything else. -/
inductive Thrown where
  | std (what : String)
  | other

/-- What is in flight inside `processFrame`: the listener's failure under its own type, or anything
else a callee threw. -/
inductive Fault where
  | consumer (what : String)
  | thrown (t : Thrown)

/-- A call of the case's code, and what it threw. -/
inductive Call where
  | event (ev : CapturedEvent) (threw : Option Thrown)
  | marker (name : String) (threw : Option Thrown)

/-- A registered acknowledgement of a stimulus step. -/
structure PendingMarker where
  token : Nat
  name : String
  matches_ : List UInt8 → Bool

/-- The segment the stream follower is handed. -/
structure FollowedSegment where
  srcIp : UInt32
  dstIp : UInt32
  srcPort : UInt16
  dstPort : UInt16
  seq : UInt32
  ack : UInt32
  flags : UInt8
  window : UInt16
  payload : Option (List UInt8)

/-- The stream a data callback is about; `fromClient` says which side's bytes it carries. -/
structure StreamData where
  clientIp : UInt32
  serverIp : UInt32
  clientPort : UInt16
  serverPort : UInt16
  fromClient : Bool
  payload : List UInt8

/-- One call of the follower: it finishes, throws, or calls back with stream data and goes on. An
exception of the callback leaves it with the state `onThrow`. -/
inductive FollowerRun (φ : Type) where
  | done (state : φ)
  | throws (t : Thrown) (state : φ)
  | data (d : StreamData) (onThrow : φ) (next : FollowerRun φ)

/-- What a run fixes: the case's handlers, the follower, and the pipeline's settings. `dutMac` is all
zero when the run names none. -/
structure Env (σ φ : Type) where
  listener : σ → CapturedEvent → σ × Option Thrown
  markerListener : Option (σ → String → σ × Option Thrown)
  processPacket : φ → FollowedSegment → FollowerRun φ
  dutMac : List UInt8 := List.replicate 6 0
  nanoPrecision : Bool := false
  controlPlanePort : UInt16 := 0

structure Pipeline (σ φ : Type) where
  consumer : σ
  follower : φ
  stats : DissectionStats := {}
  controlPlaneFrames : Nat := 0
  residuals : Residuals := ∅
  markers : List PendingMarker := []
  lastToken : Nat := 0
  lastPacketTsUs : Int := 0
  calls : List Call := []

/-- A captured frame: its `caplen` bytes, the length it had on the wire, its timestamp and the
datalink type of its source. -/
structure PcapFrame where
  bytes : List UInt8
  len : Nat
  tvSec : Int
  tvUsec : Int
  datalink : Nat

abbrev M (σ φ : Type) := ExceptT Fault (StateM (Pipeline σ φ))

section

variable {σ φ : Type} (env : Env σ φ)

/-- The wrapped listener: whatever the case's handler throws comes out as a consumer fault. -/
def callListener (ev : CapturedEvent) : M σ φ Unit := fun s =>
  let (consumer, threw) := env.listener s.consumer ev
  let s := { s with consumer := consumer, calls := s.calls ++ [.event ev threw] }
  match threw with
  | none => (.ok (), s)
  | some (.std what) => (.error (.consumer what), s)
  | some .other => (.error (.consumer "the listener threw a non-standard exception"), s)

/-- The marker listener is called as it is: what it throws comes out unchanged. -/
def callMarker (handler : σ → String → σ × Option Thrown) (name : String) : M σ φ Unit := fun s =>
  let (consumer, threw) := handler s.consumer name
  let s := { s with consumer := consumer, calls := s.calls ++ [.marker name threw] }
  match threw with
  | none => (.ok (), s)
  | some t => (.error (.thrown t), s)

/-- `StimulusMarkers::take`: the first registration the frame acknowledges, consumed. -/
def takeMarker (bytes : List UInt8) (markers : List PendingMarker) :
    Option String × List PendingMarker :=
  match markers.find? fun m => m.matches_ bytes with
  | none => (none, markers)
  | some m => (some m.name, markers.eraseP fun m => m.matches_ bytes)

/-- `noteUndissectable` on the counters: the tester's own malformed stimulus is told apart by the
Ethernet source, when the run named the DUT's and the frame has one. -/
def noteUndissectable (bytes : List UInt8) (frameIdx : Nat) (reason : String)
    (stats : DissectionStats) : DissectionStats :=
  let stats := { stats with framesUndissectable := stats.framesUndissectable + 1 }
  if env.dutMac ≠ List.replicate 6 0 ∧ bytes.length ≥ 6 + 6 ∧ (bytes.drop 6).take 6 ≠ env.dutMac then
    stats
  else
    let stats :=
      { stats with framesUndissectablePossiblyDut := stats.framesUndissectablePossiblyDut + 1 }
    if stats.firstUndissectableFrame.isNone then
      { stats with
        firstUndissectableFrame := some frameIdx
        firstUndissectableReason := reason }
    else stats

/-- Count the frame as undissectable. -/
def note (bytes : List UInt8) (frameIdx : Nat) (reason : String) : M σ φ Unit :=
  modify fun s => { s with stats := noteUndissectable env bytes frameIdx reason s.stats }

/-! ## SOME/IP delivery -/

/-- `SomeIpDispatcher::deliver`. -/
def deliver (t : Transport) (data : List UInt8) : M σ φ Unit :=
  (deliverFrames t data).forM fun f => callListener env (.someIp f)

/-- `SomeIpDispatcher::feed`. The bytes taken are erased only after every frame was handed on. -/
def feed (t : Transport) (data : List UInt8) : M σ φ Unit := do
  let buf := ((← get).residuals[flowKey t]?).getD [] ++ data
  modify fun s => { s with residuals := s.residuals.insert (flowKey t) buf }
  let (frames, rest) := feedFrames t buf
  frames.forM fun f => callListener env (.someIp f)
  modify fun s => { s with residuals := s.residuals.insert (flowKey t) rest }

/-- `onClientData` and `onServerData`: the direction is that of the bytes. -/
def onStreamData (d : StreamData) : M σ φ Unit := do
  if d.payload.isEmpty then return
  let ts := (← get).lastPacketTsUs
  feed env
    { proto := .tcp
      srcIp := if d.fromClient then d.clientIp else d.serverIp
      dstIp := if d.fromClient then d.serverIp else d.clientIp
      srcPort := if d.fromClient then d.clientPort else d.serverPort
      dstPort := if d.fromClient then d.serverPort else d.clientPort
      observedTsUs := ts } d.payload

/-- One call of the follower, with the pipeline's callbacks. -/
def runFollower : FollowerRun φ → M σ φ Unit
  | .done state => modify fun s => { s with follower := state }
  | .throws t state => fun s => (.error (.thrown t), { s with follower := state })
  | .data d onThrow next => fun s =>
    match onStreamData env d s with
    | (.ok (), s) => runFollower next s
    | (.error e, s) => (.error e, { s with follower := onThrow })

def followTcp (ip : Ipv4Header) (tcp : TcpSegment) : M σ φ Unit := do
  runFollower env <| env.processPacket (← get).follower
    { srcIp := ip.srcBe
      dstIp := ip.dstBe
      srcPort := tcp.srcPort
      dstPort := tcp.dstPort
      seq := tcp.seq
      ack := tcp.ack
      flags := tcp.flags
      window := tcp.window
      payload := tcp.payload }

/-! ## The layers -/

def kDhcpServerPort : UInt16 := 67
def kDhcpClientPort : UInt16 := 68

def isDhcpPortPair (srcPort dstPort : UInt16) : Bool :=
  srcPort == kDhcpServerPort || dstPort == kDhcpServerPort ||
    srcPort == kDhcpClientPort || dstPort == kDhcpClientPort

def kMagicCookieOff : Nat := 236
def kMagicCookie : UInt32 := 0x63825363
def kOptionsOff : Nat := 240

/-- The walk over the DHCP options: the value of the last Message Type option, and whether END was
met. Every step moves on, so one step a byte is enough. -/
def walkDhcpOptions (options : List UInt8) : Nat → Nat → Option UInt8 → Option UInt8 × Bool
  | 0, _, messageType => (messageType, false)
  | steps + 1, i, messageType =>
    if i ≥ options.length then (messageType, false)
    else
      let code := options.getD i 0
      if code = 0xFF then (messageType, true)
      else if code = 0x00 then walkDhcpOptions options steps (i + 1) messageType
      else if i + 1 ≥ options.length then (messageType, false)
      else
        let optLen := (options.getD (i + 1) 0).toNat
        if i + 2 + optLen > options.length then (messageType, false)
        else
          walkDhcpOptions options steps (i + 2 + optLen)
            (if code = 53 ∧ optLen = 1 then some (options.getD (i + 2) 0) else messageType)

/-- The DHCP view of a datagram whose BOOTP part is all there. -/
def dhcpv4FrameFrom (uf : UdpFrame) (bp : List UInt8) : Dhcpv4Frame :=
  let cookie := readBe32 bp kMagicCookieOff == kMagicCookie
  let options := if cookie then bp.drop kOptionsOff else []
  let (messageType, sawEnd) := walkDhcpOptions options options.length 0 none
  { envelope := uf.envelope
    ethSrc := uf.ethSrc
    ethDst := uf.ethDst
    srcIp := uf.srcIp
    dstIp := uf.dstIp
    srcPort := uf.udp.srcPort
    dstPort := uf.udp.dstPort
    op := bp.getD 0 0
    htype := bp.getD 1 0
    hlen := bp.getD 2 0
    hops := bp.getD 3 0
    xid := readBe32 bp 4
    secs := readBe16 bp 8
    flags := readBe16 bp 10
    ciaddr := copy32 bp 12
    yiaddr := copy32 bp 16
    siaddr := copy32 bp 20
    giaddr := copy32 bp 24
    chaddr := (bp.drop 28).take 16
    magicCookieValid := cookie
    messageType := messageType
    lastOptionIsEnd := sawEnd
    options := options
    observedTsUs := uf.observedTsUs
    vlan := uf.vlan }

/-- What every layer below Ethernet is told about its frame. -/
structure FrameContext where
  bytes : List UInt8
  frameIdx : Nat
  observedTsUs : Int
  vlan : Dot1QTag

def dissectIcmp (ctx : FrameContext) (ip : Ipv4Header) (l4 : List UInt8) : M σ φ Unit :=
  match decodeIcmpv4 l4 with
  | none => note env ctx.bytes ctx.frameIdx "an ICMPv4 message shorter than its type's fixed part"
  | some icmp =>
    callListener env <| .icmpv4
      { srcIp := ip.srcBe
        dstIp := ip.dstBe
        icmp := icmp
        observedTsUs := ctx.observedTsUs
        vlan := ctx.vlan }

def dissectUdp (ctx : FrameContext) (eth : EthernetFrame) (ip : Ipv4Header) (l4 : List UInt8) :
    M σ φ Unit :=
  match decodeUdp l4 with
  | none => note env ctx.bytes ctx.frameIdx "a UDP datagram shorter than its header"
  | some udp => do
    let uf : UdpFrame :=
      { envelope := ipv4EnvelopeFrom ip
        srcIp := ip.srcBe
        dstIp := ip.dstBe
        udp := udp
        ethSrc := eth.src
        ethDst := eth.dst
        observedTsUs := ctx.observedTsUs
        vlan := ctx.vlan }
    callListener env (.udp uf)
    match udp.payload with
    | none => return
    | some payload =>
      if isDhcpPortPair udp.srcPort udp.dstPort ∧ payload.length ≥ kOptionsOff then
        callListener env (.dhcpv4 (dhcpv4FrameFrom uf payload))
      deliver env
        { proto := .udp
          srcIp := uf.srcIp
          dstIp := uf.dstIp
          srcPort := udp.srcPort
          dstPort := udp.dstPort
          observedTsUs := ctx.observedTsUs } payload

/-- The segment as the Total Length bounds it, when it is all there. -/
def tcpSegmentValid (ip : Ipv4Header) (l4 : List UInt8) : Bool :=
  let segmentLen :=
    if ip.totalLength.toNat ≥ ip.headerLen then ip.totalLength.toNat - ip.headerLen else 0
  decide (segmentLen ≥ kTcpFixedHeaderLen) && decide (segmentLen ≤ l4.length) &&
    tcpChecksumValid ip.srcBe ip.dstBe (l4.take segmentLen)

def dissectTcp (ctx : FrameContext) (ip : Ipv4Header) (l4 : List UInt8) : M σ φ Unit :=
  match decodeTcp l4 with
  | none => note env ctx.bytes ctx.frameIdx "a TCP header that cannot be located"
  | some tcp => do
    callListener env <| .tcp
      { envelope := ipv4EnvelopeFrom ip
        srcIp := ip.srcBe
        dstIp := ip.dstBe
        tcp := tcp
        mss := tcp.mss.getD 0
        checksumValid := tcpSegmentValid ip l4
        observedTsUs := ctx.observedTsUs
        vlan := ctx.vlan }
    followTcp env ip tcp

def kIpProtoIcmp : UInt8 := 1
def kIpProtoTcp : UInt8 := 6
def kIpProtoUdp : UInt8 := 17

/-- The harness's own control channel, by the transport port of either end. -/
def isControlPlanePacket (ip : Ipv4Header) (l4 : List UInt8) (port : UInt16) : Bool :=
  if ip.fragmented then false
  else if ip.protocol = kIpProtoUdp then
    match decodeUdp l4 with
    | some udp => udp.srcPort == port || udp.dstPort == port
    | none => false
  else if ip.protocol = kIpProtoTcp then
    match decodeTcp l4 with
    | some tcp => tcp.srcPort == port || tcp.dstPort == port
    | none => false
  else false

/-- The IPv4 payload a frame carries. -/
def l4Of (eth : EthernetFrame) (ip : Ipv4Header) : List UInt8 :=
  (eth.payload.drop ip.headerLen).take (ipv4PayloadLen ip eth.payload.length)

/-- The packet is withheld as control-plane traffic. -/
def withheld (eth : EthernetFrame) (ip : Ipv4Header) : Bool :=
  env.controlPlanePort != 0 && isControlPlanePacket ip (l4Of eth ip) env.controlPlanePort

/-- A withheld packet is counted, and delivers the marker it acknowledges. -/
def withhold (bytes : List UInt8) : M σ φ Unit := do
  modify fun s => { s with controlPlaneFrames := s.controlPlaneFrames + 1 }
  match env.markerListener with
  | none => return
  | some handler =>
    let (name, markers) := takeMarker bytes (← get).markers
    modify fun s => { s with markers := markers }
    match name with
    | none => return
    | some name => callMarker handler name

/-- The IPv4 branch after the header is read. -/
def dissectIpv4 (ctx : FrameContext) (eth : EthernetFrame) (ip : Ipv4Header) : M σ φ Unit := do
  callListener env <| .ipv4
    { version := ip.version
      ihl := ip.ihl
      tos := ip.tos
      totalLength := ip.totalLength
      identification := ip.identification
      flags := ip.flags
      fragmentOffset := ip.fragmentOffset
      ttl := ip.ttl
      protocol := ip.protocol
      headerChecksum := ip.headerChecksum
      srcAddr := ip.srcBe
      dstAddr := ip.dstBe
      observedTsUs := ctx.observedTsUs
      vlan := ctx.vlan }
  if ip.fragmented then return
  let l4 := l4Of eth ip
  if ip.protocol = kIpProtoIcmp then dissectIcmp env ctx ip l4
  else if ip.protocol = kIpProtoUdp then dissectUdp env ctx eth ip l4
  else if ip.protocol = kIpProtoTcp then dissectTcp env ctx ip l4
  else return

def dissectFrame (bytes : List UInt8) (frameIdx : Nat) (observedTsUs : Int) : M σ φ Unit :=
  match decodeEthernet bytes with
  | none => note env bytes frameIdx "an Ethernet frame shorter than its header or tag"
  | some eth =>
    let ctx : FrameContext := ⟨bytes, frameIdx, observedTsUs, dot1qTagFrom eth⟩
    if eth.etherType = kEtherTypeArp then
      match decodeArp eth.payload with
      | none => note env bytes frameIdx "an ARP packet shorter than its address fields"
      | some arp =>
        callListener env <| .arp
          { arp := arp
            ethSrc := eth.src
            ethDst := eth.dst
            observedTsUs := observedTsUs
            vlan := ctx.vlan }
    else if eth.etherType ≠ kEtherTypeIpv4 then return
    else
      match decodeIpv4Header eth.payload with
      | none => note env bytes frameIdx "an IPv4 header that cannot be located"
      | some ip => if withheld env eth ip then withhold env bytes else dissectIpv4 env ctx eth ip

def kDltEn10mb : Nat := 1

/-- The catch clauses of `processFrame`. -/
def settle (bytes : List UInt8) (frameIdx : Nat) (result : Except Fault Unit)
    (stats : DissectionStats) : DissectionStats :=
  match result with
  | .ok () => stats
  | .error (.consumer what) =>
    let stats := { stats with consumerFaults := stats.consumerFaults + 1 }
    if stats.firstConsumerFaultFrame.isNone then
      { stats with
        firstConsumerFaultFrame := some frameIdx
        firstConsumerFaultReason := what }
    else stats
  | .error (.thrown (.std what)) => noteUndissectable env bytes frameIdx what stats
  | .error (.thrown .other) =>
    noteUndissectable env bytes frameIdx "a dissector threw a non-standard exception" stats

/-- The arrival time in microseconds. -/
def observedTsUsOf (f : PcapFrame) : Int :=
  f.tvSec * 1000000 + if env.nanoPrecision then f.tvUsec.tdiv 1000 else f.tvUsec

/-- `PacketPipeline::processFrame`. -/
def processFrame (s : Pipeline σ φ) (f : PcapFrame) : Pipeline σ φ :=
  let frameIdx := s.stats.framesSeen
  let s := { s with stats := { s.stats with framesSeen := frameIdx + 1 }, calls := [] }
  if f.datalink ≠ kDltEn10mb then s
  else if f.bytes.length < f.len then
    { s with stats := { s.stats with framesTruncated := s.stats.framesTruncated + 1 } }
  else
    let ts := observedTsUsOf env f
    let s := { s with lastPacketTsUs := ts }
    let (result, s) := dissectFrame env f.bytes frameIdx ts s
    { s with stats := settle env f.bytes frameIdx result s.stats }

end

end Tc8Harness.Dissect
