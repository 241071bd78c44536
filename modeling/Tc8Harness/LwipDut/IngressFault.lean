import Tc8Harness.Lib.ByteBuffer
import Tc8Harness.Wire.Checksum

/-!
# The ingress fault hook

`dut/lwip_dut/lwip_ingress_fault.cpp` with the offsets of `lwip_wire.h`: the wrapper around the netif's
input. Every frame passes it on the way to lwIP; under an armed flavor it is answered, rewritten, held
back or swallowed there. The globals of the file and the two statics inside `ingressFaultInput` are the
fields of `Hook`. lwIP itself is not in the repository: `Stack` has the calls the hook makes of it and
the fields of the netif it reads. A pbuf is never null here.
-/

namespace Tc8Harness.LwipDut

open BigEndian Wire Someip ByteBuffer

/-! ## Offsets -/

def kEthTypeOff : Nat := 12
def kEthHdrLen : Nat := 14
def kArpOpcode : Nat := 20
def kArpSenderHw : Nat := 22
def kArpSenderIp : Nat := 28
def kArpTargetIp : Nat := 38
def kArpFrameLen : Nat := 42
def kIpTotalLenOff : Nat := 16
def kIpIdOff : Nat := 18
def kIpProtoOff : Nat := 23
def kIpHdrChecksumOff : Nat := 24
def kIpSrcOff : Nat := 26
def kIpHdrLenMin : Nat := 20
def kIpProtoUdp : UInt8 := 17
def kIpProtoTcp : UInt8 := 6
def kIpProtoIcmp : UInt8 := 1
def kIcmpTypeOff : Nat := 0
def kIcmpEchoIdOff : Nat := 4
def kIcmpEchoSeqOff : Nat := 6
def kIcmpMinHdrLen : Nat := 8
def kIcmpTypeEchoReply : UInt8 := 0
def kIcmpTypeTimeExceeded : UInt8 := 11
def kIcmpTypeParamProblem : UInt8 := 12
def kIcmpTypeTimestamp : UInt8 := 13
def kIcmpTypeTimestampReply : UInt8 := 14
def kIcmpTypeInfoReply : UInt8 := 16
def kUdpDstPort : Nat := 2
def kUdpChecksum : Nat := 6
def kUdpHdrLen : Nat := 8
def kTcpSrcPortOff : Nat := 0
def kTcpDstPortOff : Nat := 2
def kTcpDataOffOff : Nat := 12
def kTcpFlagsOff : Nat := 13
def kTcpMinHdrLen : Nat := 20
def kTcpFlagFin : UInt8 := 0x01
def kTcpFlagSyn : UInt8 := 0x02
def kTcpFlagRst : UInt8 := 0x04
def kTcpFlagPsh : UInt8 := 0x08
def kTcpFlagAck : UInt8 := 0x10
def kTcpFlagUrg : UInt8 := 0x20

/-- The Upper Tester's control port and its data port. -/
def kPort : UInt16 := 30600
def kDataPort : UInt16 := 20000

/-! ## Flavors -/

def kIngressFaultNone : UInt8 := 0x00
def kArpFaultReplyToDropFrame : UInt8 := 0x01
def kArpFaultLearnFromDropFrame : UInt8 := 0x02
def kUdpFaultAcceptBadChecksum : UInt8 := 0x03
def kUdpFaultRejectValid : UInt8 := 0x04
def kIcmpFaultSynthEchoReply : UInt8 := 0x05
def kIcmpFaultSynthInfoReply : UInt8 := 0x06
def kIcmpFaultSynthParamProblem : UInt8 := 0x07
def kTcpSynthRst : UInt8 := 0x08
def kTcpSynthAck : UInt8 := 0x09
def kTcpSynthRstOnDisruptive : UInt8 := 0x0A
def kIcmpFaultSynthTimeExceeded : UInt8 := 0x0B
def kTcpSynthFinOnDisruptive : UInt8 := 0x0C
def kTcpDropDisruptiveRst : UInt8 := 0x0D
def kTcpSynthAckSrcPortBlind : UInt8 := 0x0E
def kIpv4FaultDropLastFragment : UInt8 := 0x0F
def kArpFaultIgnoreLearn : UInt8 := 0x10
def kIpv4FaultNormaliseFragTuple : UInt8 := 0x11
def kArpFaultIgnoreUpdate : UInt8 := 0x12
def kArpFaultIgnoreGratuitous : UInt8 := 0x13
def kIcmpFaultSynthTimestampReplyBadSeq : UInt8 := 0x14
def kIpv4FaultHoldFirstFragment : UInt8 := 0x15
def kArpFaultIgnoreWellFormedRequest : UInt8 := 0x16

/-! ## Frames -/

/-- A pbuf: the memory its payload pointer is at, of which the first `len` bytes are the frame's, and
the bytes of the buffers chained behind it. -/
structure Pbuf where
  payload : List UInt8
  len : Nat
  next : List UInt8 := []
  deriving DecidableEq

def isArp (f : List UInt8) : Bool :=
  f.getD kEthTypeOff 0 == 0x08 && f.getD (kEthTypeOff + 1) 0 == 0x06

def isIpv4 (f : List UInt8) : Bool :=
  f.getD kEthTypeOff 0 == 0x08 && f.getD (kEthTypeOff + 1) 0 == 0x00

def l4RegionOffset (f : List UInt8) : Nat := kEthHdrLen + (f.getD kEthHdrLen 0 &&& 0x0F).toNat * 4

def tcpHasPayload (f : List UInt8) (tcp : Nat) : Bool :=
  (f.getD kEthHdrLen 0 &&& 0x0F).toNat * 4 + (f.getD (tcp + kTcpDataOffOff) 0 >>> 4).toNat * 4 <
    (readBe16 f kIpTotalLenOff).toNat

def moreFragments (f : List UInt8) : Bool := f.getD (kEthHdrLen + 6) 0 &&& 0x20 != 0

def fragOffset (f : List UInt8) : Nat :=
  (f.getD (kEthHdrLen + 6) 0 &&& 0x1F).toNat * 256 + (f.getD (kEthHdrLen + 7) 0).toNat

/-- An Ethernet frame that holds an IPv4 header without options. -/
def hasIpv4Header (p : Pbuf) : Bool := kEthHdrLen + kIpHdrLenMin ≤ p.len && isIpv4 p.payload

/-- The IPv4 frame carries `proto`, and `hdrLen` bytes of it. -/
def carries (p : Pbuf) (proto : UInt8) (hdrLen : Nat) : Bool :=
  p.payload.getD kIpProtoOff 0 == proto && l4RegionOffset p.payload + hdrLen ≤ p.len

/-! ## The stack -/

structure TcpPcb where
  established : Bool
  localPort : UInt16
  remotePort : UInt16
  deriving DecidableEq

/-- What the hook reads of lwIP and asks of it, over lwIP's own state. Addresses are the words lwIP
keeps, in network order. -/
structure Stack (σ : Type) where
  hwaddr : σ → Vector UInt8 6
  ipAddr : σ → UInt32
  tcpActivePcbs : σ → List TcpPcb
  /-- `pbuf_alloc`, which can run out of memory. -/
  pbufAlloc : σ → Nat → Bool × σ
  pbufFree : σ → Pbuf → σ
  linkoutput : σ → List UInt8 → σ
  addStaticEntry : σ → UInt32 → List UInt8 → σ
  /-- `tcpip_input`, which refuses a frame when its mailbox is full. -/
  tcpipInput : σ → Pbuf → Bool × σ

/-- What the hook does with the frames. -/
inductive Effect where
  | forwarded (p : Pbuf)
  | swallowed (p : Pbuf)
  | synthesized (frame : List UInt8)
  | learned (ip : UInt32) (mac : List UInt8)
  deriving DecidableEq

/-- `anchor[7]`: what a head fragment's reassembly tuple has besides the destination. -/
structure Anchor where
  id : UInt16
  proto : UInt8
  src : UInt32
  deriving DecidableEq

def anchorOf (f : List UInt8) : Anchor :=
  ⟨readBe16 f kIpIdOff, f.getD kIpProtoOff 0, copy32 f kIpSrcOff⟩

/-- The frame with the anchor's tuple, its header checksum recomputed. -/
def Anchor.impose (anchor : Anchor) (f : List UInt8) : List UInt8 :=
  let f := writeAt f kIpIdOff (putBe16 anchor.id)
  let f := writeAt f kIpProtoOff [anchor.proto]
  let f := writeAt f kIpSrcOff (bytes32 anchor.src)
  let f := writeAt f kIpHdrChecksumOff (putBe16 0)
  writeAt f kIpHdrChecksumOff (putBe16 (inetChecksum ((f.drop kEthHdrLen).take kIpHdrLenMin)))

/-- The size of `g_held_fragment`. -/
def kHeldFragmentCap : Nat := 1600

/-- The file's globals, lwIP's state, and what became of the frame that arrived last. -/
structure Hook (σ : Type) where
  flavor : UInt8 := kIngressFaultNone
  rxFrames : UInt32 := 0
  rxIpv4Frags : UInt32 := 0
  inputRefused : UInt32 := 0
  firstTaughtIp : UInt32 := 0
  haveFirstTaught : Bool := false
  heldFragment : List UInt8 := List.replicate kHeldFragmentCap 0
  heldFragmentLen : Nat := 0
  controlPeerMac : List UInt8 := List.replicate 6 0
  haveControlPeer : Bool := false
  /-- `anchor` and `have_anchor`, the statics of the input hook: there is none before a head fragment. -/
  anchor : Option Anchor := none
  stack : σ
  effects : List Effect := []

namespace Hook

variable {σ : Type} (lwip : Stack σ)

/-! ## Synthesized frames -/

/-- Allocate a frame, hand it to the link and free it. -/
def linkoutput (s : Hook σ) (frame : List UInt8) : Hook σ :=
  let (allocated, stack) := lwip.pbufAlloc s.stack frame.length
  if allocated then
    { s with stack := lwip.linkoutput stack frame, effects := s.effects ++ [.synthesized frame] }
  else { s with stack }

def emitProhibitedArpReply (s : Hook σ) (rx : List UInt8) : Hook σ :=
  let mac := (lwip.hwaddr s.stack).toList
  let senderHw := (rx.drop kArpSenderHw).take 6
  s.linkoutput lwip (senderHw ++ mac ++ putBe16 0x0806 ++ putBe16 0x0001 ++ putBe16 0x0800 ++ [6, 4] ++
    putBe16 0x0002 ++ mac ++ bytes32 (lwip.ipAddr s.stack) ++ senderHw ++ (rx.drop kArpSenderIp).take 4)

/-- The Ethernet and IPv4 headers of a frame from the DUT back to the sender of `rx`. -/
def replyHeaders (s : Hook σ) (rx : List UInt8) (proto : UInt8) (l4Len : Nat) : List UInt8 :=
  let fixed := [0x45, 0] ++ putBe16 (UInt16.ofNat (kIpHdrLenMin + l4Len)) ++ [0, 0, 0, 0, 64, proto]
  let addresses := bytes32 (lwip.ipAddr s.stack) ++ (rx.drop kIpSrcOff).take 4
  (rx.drop 6).take 6 ++ (lwip.hwaddr s.stack).toList ++ putBe16 0x0800 ++
    fixed ++ putBe16 (inetChecksum (fixed ++ [0, 0] ++ addresses)) ++ addresses

def emitProhibitedIcmpReply (s : Hook σ) (rx : List UInt8) (replyType : UInt8) : Hook σ :=
  let body := fun checksum : UInt16 => [replyType, 0] ++ putBe16 checksum ++ [0, 0, 0, 0]
  s.linkoutput lwip (s.replyHeaders lwip rx kIpProtoIcmp kIcmpMinHdrLen ++ body (inetChecksum (body 0)))

/-- The identifier of the request and its sequence number inverted. Both are read where they stand
behind a header without options. -/
def emitTimestampReplyBadSeq (s : Hook σ) (rx : List UInt8) : Hook σ :=
  let l4 := kEthHdrLen + kIpHdrLenMin
  let body := fun checksum : UInt16 => [kIcmpTypeTimestampReply, 0] ++ putBe16 checksum ++
    putBe16 (readBe16 rx (l4 + kIcmpEchoIdOff)) ++ putBe16 (~~~ readBe16 rx (l4 + kIcmpEchoSeqOff)) ++
    List.replicate 12 0
  s.linkoutput lwip (s.replyHeaders lwip rx kIpProtoIcmp 20 ++ body (inetChecksum (body 0)))

def emitTcpReply (s : Hook σ) (rx : List UInt8) (srcPort dstPort : UInt16) (tcpFlags : UInt8) :
    Hook σ :=
  let segment := fun checksum : UInt16 => putBe16 srcPort ++ putBe16 dstPort ++ List.replicate 8 0 ++
    [0x50, tcpFlags, 0, 0] ++ putBe16 checksum ++ [0, 0]
  let checksum := tcpChecksum (lwip.ipAddr s.stack) (copy32 rx kIpSrcOff) (segment 0)
  s.linkoutput lwip
    (s.replyHeaders lwip rx kIpProtoTcp kTcpMinHdrLen ++ segment (UInt16.ofNat checksum))

/-- The reply on the trigger's own connection, its ports swapped. -/
def emitProhibitedTcpSegment (s : Hook σ) (rx : List UInt8) (tcpFlags : UInt8) : Hook σ :=
  let rxL4 := l4RegionOffset rx
  s.emitTcpReply lwip rx (readBe16 rx (rxL4 + kTcpDstPortOff)) (readBe16 rx (rxL4 + kTcpSrcPortOff))
    tcpFlags

/-- The reply on an established connection of the local port whose peer is at another port. -/
def emitSrcPortBlindAck (s : Hook σ) (rx : List UInt8) : Hook σ :=
  let rxL4 := l4RegionOffset rx
  let localPort := readBe16 rx (rxL4 + kTcpDstPortOff)
  let wrongSrc := readBe16 rx (rxL4 + kTcpSrcPortOff)
  match (lwip.tcpActivePcbs s.stack).find? fun pcb =>
    pcb.established && pcb.localPort == localPort && pcb.remotePort != wrongSrc with
  | none => s
  | some pcb => s.emitTcpReply lwip rx localPort pcb.remotePort kTcpFlagAck

/-! ## What the hook remembers -/

def noteControlPeer (s : Hook σ) (p : Pbuf) : Hook σ :=
  let f := p.payload
  if p.len < kIpProtoOff + 1 || !isIpv4 f || f.getD kIpProtoOff 0 != kIpProtoUdp ||
      p.len < l4RegionOffset f + kUdpHdrLen then s
  else if readBe16 f (l4RegionOffset f + kUdpDstPort) = kPort then
    { s with controlPeerMac := (f.drop 6).take 6, haveControlPeer := true }
  else s

/-- A Request for the DUT's address from anyone but the control peer. -/
def isPeerRequestForUs (s : Hook σ) (f : List UInt8) : Bool :=
  let forUs := copy32 f kArpTargetIp == lwip.ipAddr s.stack
  let fromPeer := s.haveControlPeer && (f.drop kArpSenderHw).take 6 == s.controlPeerMac
  readBe16 f kArpOpcode == 0x0001 && forUs && !fromPeer

/-- Whether the sender taught its address before; if not, it has now. -/
def senderAlreadyTaught (s : Hook σ) (rx : List UInt8) : Bool × Hook σ :=
  let ip := copy32 rx kArpSenderIp
  if s.haveFirstTaught && ip == s.firstTaughtIp then (true, s)
  else (false, { s with firstTaughtIp := ip, haveFirstTaught := true })

def learnDropFrameAddress (s : Hook σ) (rx : List UInt8) : Hook σ :=
  let ip := copy32 rx kArpSenderIp
  let mac := (rx.drop kArpSenderHw).take 6
  { s with stack := lwip.addStaticEntry s.stack ip mac, effects := s.effects ++ [.learned ip mac] }

/-! ## The input hook

Each reaction returns the frame that goes on to lwIP, if one does. -/

/-- `pbuf_free(p); return ERR_OK`. -/
def swallow (s : Hook σ) (p : Pbuf) : Hook σ × Option Pbuf :=
  ({ s with stack := lwip.pbufFree s.stack p, effects := s.effects ++ [.swallowed p] }, none)

def reactArp (s : Hook σ) (p : Pbuf) : Hook σ × Option Pbuf :=
  let f := p.payload
  let request := readBe16 f kArpOpcode == 0x0001
  let reply := readBe16 f kArpOpcode == 0x0002
  if s.flavor == kArpFaultIgnoreWellFormedRequest && s.isPeerRequestForUs lwip f then s.swallow lwip p
  else if s.flavor = kArpFaultReplyToDropFrame then (s.emitProhibitedArpReply lwip f, some p)
  else if s.flavor == kArpFaultLearnFromDropFrame && reply then (s.learnDropFrameAddress lwip f, some p)
  else if request && s.flavor == kArpFaultIgnoreLearn then s.swallow lwip p
  else if request && s.flavor == kArpFaultIgnoreUpdate then
    match s.senderAlreadyTaught f with
    | (true, s) => s.swallow lwip p
    | (false, s) => (s, some p)
  else if s.flavor == kArpFaultIgnoreGratuitous && reply &&
      copy32 f kArpSenderIp == copy32 f kArpTargetIp then s.swallow lwip p
  else (s, some p)

def reactUdp (s : Hook σ) (p : Pbuf) : Hook σ × Option Pbuf :=
  let udp := l4RegionOffset p.payload
  if readBe16 p.payload (udp + kUdpDstPort) = kDataPort then
    if s.flavor = kUdpFaultRejectValid then s.swallow lwip p
    else (s, some { p with payload := writeBe16 p.payload (udp + kUdpChecksum) 0x0000 })
  else (s, some p)

def icmpReplyType (flavor : UInt8) : UInt8 :=
  if flavor = kIcmpFaultSynthInfoReply then kIcmpTypeInfoReply
  else if flavor = kIcmpFaultSynthParamProblem then kIcmpTypeParamProblem
  else if flavor = kIcmpFaultSynthTimeExceeded then kIcmpTypeTimeExceeded
  else kIcmpTypeEchoReply

/-- The flags of the segment a TCP flavor answers with, when the trigger's flags call for one. -/
def tcpAnswer (flavor : UInt8) (f : List UInt8) : Option UInt8 :=
  let tcp := l4RegionOffset f
  let flags := f.getD (tcp + kTcpFlagsOff) 0
  let disruptive := flags &&& (kTcpFlagRst ||| kTcpFlagFin ||| kTcpFlagUrg ||| kTcpFlagPsh) != 0
  if flavor = kTcpSynthRst then
    if flags &&& kTcpFlagAck != 0 && flags &&& (kTcpFlagSyn ||| kTcpFlagFin ||| kTcpFlagRst) == 0 &&
        !tcpHasPayload f tcp then some kTcpFlagRst
    else none
  else if flavor = kTcpSynthAck then
    if flags &&& (kTcpFlagSyn ||| kTcpFlagPsh) != 0 then some kTcpFlagAck else none
  else if flavor = kTcpSynthRstOnDisruptive then if disruptive then some kTcpFlagRst else none
  else if disruptive then some (kTcpFlagFin ||| kTcpFlagAck) else none

/-- A head fragment becomes the anchor; a later fragment takes the anchor's tuple. -/
def normaliseFragTuple (s : Hook σ) (p : Pbuf) : Hook σ × Option Pbuf :=
  let f := p.payload
  if moreFragments f || fragOffset f != 0 then
    if fragOffset f = 0 then ({ s with anchor := some (anchorOf f) }, some p)
    else
      match s.anchor with
      | some anchor => (s, some { p with payload := anchor.impose f })
      | none => (s, some p)
  else (s, some p)

/-- The head is copied and swallowed; its tail releases it ahead of itself. -/
def holdFirstFragment (s : Hook σ) (p : Pbuf) : Hook σ × Option Pbuf :=
  let f := p.payload
  if moreFragments f && fragOffset f == 0 && p.len ≤ kHeldFragmentCap then
    { s with heldFragment := writeAt s.heldFragment 0 (resize f p.len),
             heldFragmentLen := p.len }.swallow lwip p
  else if !moreFragments f && fragOffset f != 0 && s.heldFragmentLen != 0 then
    let (allocated, stack) := lwip.pbufAlloc s.stack s.heldFragmentLen
    if allocated then
      let head : Pbuf := ⟨s.heldFragment.take s.heldFragmentLen, s.heldFragmentLen, []⟩
      ({ s with heldFragmentLen := 0, stack := (lwip.tcpipInput stack head).2,
                effects := s.effects ++ [.forwarded head] }, some p)
    else ({ s with stack }, some p)
  else (s, some p)

/-- The branches of the hook. -/
inductive Reaction where
  | arp | udp | icmp | timestamp | tcp | dropRst | dropLast | normalise | hold | portBlind | pass
  deriving DecidableEq

/-- The branch the armed flavor and the frame choose. -/
def reaction (flavor : UInt8) (p : Pbuf) : Reaction :=
  let f := p.payload
  if decide (kArpFrameLen ≤ p.len) && isArp f then .arp
  else if (flavor == kUdpFaultAcceptBadChecksum || flavor == kUdpFaultRejectValid) &&
      decide (kIpProtoOff + 1 ≤ p.len) && isIpv4 f && carries p kIpProtoUdp kUdpHdrLen then .udp
  else if (flavor == kIcmpFaultSynthEchoReply || flavor == kIcmpFaultSynthInfoReply ||
      flavor == kIcmpFaultSynthParamProblem || flavor == kIcmpFaultSynthTimeExceeded) &&
      hasIpv4Header p && f.getD kIpProtoOff 0 == kIpProtoIcmp then .icmp
  else if flavor == kIcmpFaultSynthTimestampReplyBadSeq && hasIpv4Header p &&
      carries p kIpProtoIcmp kIcmpMinHdrLen &&
      f.getD (l4RegionOffset f + kIcmpTypeOff) 0 == kIcmpTypeTimestamp then .timestamp
  else if (flavor == kTcpSynthRst || flavor == kTcpSynthAck || flavor == kTcpSynthRstOnDisruptive ||
      flavor == kTcpSynthFinOnDisruptive) &&
      hasIpv4Header p && carries p kIpProtoTcp kTcpMinHdrLen then .tcp
  else if flavor == kTcpDropDisruptiveRst && hasIpv4Header p && carries p kIpProtoTcp kTcpMinHdrLen then
    .dropRst
  else if flavor == kIpv4FaultDropLastFragment && hasIpv4Header p then .dropLast
  else if flavor == kIpv4FaultNormaliseFragTuple && hasIpv4Header p then .normalise
  else if flavor == kIpv4FaultHoldFirstFragment && hasIpv4Header p then .hold
  else if flavor == kTcpSynthAckSrcPortBlind && hasIpv4Header p &&
      carries p kIpProtoTcp kTcpMinHdrLen then .portBlind
  else .pass

/-- The body of `if (flavor != kIngressFaultNone)`. -/
def react (s : Hook σ) (p : Pbuf) : Hook σ × Option Pbuf :=
  let f := p.payload
  match reaction s.flavor p with
  | .arp => s.reactArp lwip p
  | .udp => s.reactUdp lwip p
  | .icmp => (s.emitProhibitedIcmpReply lwip f (icmpReplyType s.flavor), some p)
  | .timestamp => (s.emitTimestampReplyBadSeq lwip f, some p)
  | .tcp =>
    match tcpAnswer s.flavor f with
    | some flags => (s.emitProhibitedTcpSegment lwip f flags, some p)
    | none => (s, some p)
  | .dropRst =>
    if f.getD (l4RegionOffset f + kTcpFlagsOff) 0 &&& kTcpFlagRst != 0 then s.swallow lwip p
    else (s, some p)
  | .dropLast => if !moreFragments f && fragOffset f != 0 then s.swallow lwip p else (s, some p)
  | .normalise => s.normaliseFragTuple p
  | .hold => s.holdFirstFragment lwip p
  | .portBlind =>
    let tcp := l4RegionOffset f
    if f.getD (tcp + kTcpFlagsOff) 0 &&& kTcpFlagAck != 0 && tcpHasPayload f tcp then
      (s.emitSrcPortBlindAck lwip f, some p)
    else (s, some p)
  | .pass => (s, some p)

/-- The frame counters at the head of the hook. -/
def count (s : Hook σ) (p : Pbuf) : Hook σ :=
  let fragment := decide (kIpProtoOff + 1 ≤ p.len) && isIpv4 p.payload &&
    (moreFragments p.payload || fragOffset p.payload != 0)
  { s with rxFrames := s.rxFrames + 1, rxIpv4Frags := s.rxIpv4Frags + if fragment then 1 else 0 }

/-- `g_orig_input(p, nif)`, its refusals counted. -/
def forward (s : Hook σ) (p : Pbuf) : Hook σ :=
  let (accepted, stack) := lwip.tcpipInput s.stack p
  { s with stack, effects := s.effects ++ [.forwarded p],
           inputRefused := s.inputRefused + if accepted then 0 else 1 }

def ingressFaultInput (s : Hook σ) (p : Pbuf) : Hook σ :=
  let s := ({ s with effects := [] }.count p).noteControlPeer p
  match if s.flavor != kIngressFaultNone then s.react lwip p else (s, some p) with
  | (s, none) => s
  | (s, some p) => s.forward lwip p

def setIngressFaultFlavor (s : Hook σ) (flavor : UInt8) : Hook σ :=
  { s with haveFirstTaught := false, firstTaughtIp := 0, heldFragmentLen := 0, flavor }

end Hook

end Tc8Harness.LwipDut
