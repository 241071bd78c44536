import Tc8Harness.Dissect.Dhcpv4Captured
import Tc8Harness.Dut.Dhcpv4Message

/-!
# The replies the DHCP client accepts

`findDhcpOption` and `pollForReply` of `dut/dut_service/dhcpv4_client.cpp`. A poll looks at the
datagrams that arrive before its deadline, one by one, and returns the first that passes every gate;
which datagrams arrive in time is left to the environment. An option that is not there, or not of its
length, reads as zero.
-/

namespace Tc8Harness.Dut

open BigEndian Wire

/-- What the client does wrong on purpose, outside the messages it writes. -/
inductive Dhcpv4BehaviorFlavor where
  | None
  | LeakLinkLocalAfterBind
  | AcceptMismatchedXidOffer
  | ProceedOnLoneAck
  | RetxNoBackoff
  | RetxExceedCap
  | NakRestartNoDelay
  | RenewingEntryNoDelay
  | RebindingEntryEarly
  | RenewingRetxNoDelay
  deriving DecidableEq, Repr

def kDhcpOffer : UInt8 := 2
def kDhcpAck : UInt8 := 5
def kDhcpNak : UInt8 := 6

/-- The bytes `recv` takes of a datagram. -/
def kRecvBufferLen : Nat := 2048

/-- The value of the first option of the code, cut to the room the caller has for it. -/
def findDhcpOption (opts : List UInt8) (code : UInt8) (outLen : Nat) : Option (List UInt8) :=
  Tlv.walk 0x00 0xFF (fun c value => if c = code then some (some (value.take outLen)) else none)
    none none opts opts.length 0

/-- The first option of the code, when what was copied of it has the length asked for. -/
def optionOfLen (opts : List UInt8) (code : UInt8) (len : Nat) : Option (List UInt8) :=
  (findDhcpOption opts code len).filter fun value => value.length = len

/-- The fields `pollForReply` hands out. -/
structure Reply where
  yiaddrBe : UInt32
  serverIdBe : UInt32
  leaseSeconds : UInt32
  msgType : UInt8
  routerBe : UInt32
  deriving DecidableEq, Repr

/-- `extract_router_from`. -/
def extractRouterFrom (region : List UInt8) (routerBe : UInt32) : UInt32 :=
  match optionOfLen region 3 4 with
  | some value => copy32 value 0
  | none => routerBe

/-- Option 3 of the options, then of `file` and of `sname` when Option 52 puts options there. -/
def routerOf (bp opts : List UInt8) : UInt32 :=
  let routerBe := extractRouterFrom opts 0
  match optionOfLen opts 52 1 with
  | none => routerBe
  | some value =>
    let overload := value.getD 0 0
    let routerBe :=
      if overload &&& 0x01 ≠ 0 then extractRouterFrom ((bp.drop 108).take 128) routerBe else routerBe
    if overload &&& 0x02 ≠ 0 then extractRouterFrom ((bp.drop 44).take 64) routerBe else routerBe

/-- What a poll is told to wait for. -/
structure ReplyGate where
  behaviorFlavor : Dhcpv4BehaviorFlavor
  dutMac : Vector UInt8 6
  expectedXidBe : UInt32
  /-- Zero accepts every message type. -/
  expectedMsgType : UInt8

namespace ReplyGate

variable (gate : ReplyGate)

def relaxXidGate : Bool :=
  gate.expectedMsgType == kDhcpOffer && gate.behaviorFlavor == .AcceptMismatchedXidOffer

def relaxMsgtypeGate : Bool :=
  gate.expectedMsgType == kDhcpOffer && gate.behaviorFlavor == .ProceedOnLoneAck

/-- One turn of the loop of `pollForReply`, on what `recv` returned. -/
def read (bp : List UInt8) : Option Reply :=
  if bp.length < kBootpFixedLen + 4 then none
  else if bp.getD 0 0 ≠ kBootReply then none
  else if copy32 bp 4 ≠ gate.expectedXidBe ∧ gate.relaxXidGate = false then none
  else if (bp.drop 28).take 6 ≠ gate.dutMac.toList then none
  else if (bp.drop 236).take 4 ≠ [0x63, 0x82, 0x53, 0x63] then none
  else
    let opts := bp.drop kBootpFixedLen
    match optionOfLen opts 53 1 with
    | none => none
    | some value =>
      let msgType := value.getD 0 0
      if gate.expectedMsgType ≠ 0 ∧ msgType ≠ gate.expectedMsgType ∧ gate.relaxMsgtypeGate = false then
        none
      else
        some
          { yiaddrBe := copy32 bp 16
            serverIdBe := ((optionOfLen opts 54 4).map fun value => copy32 value 0).getD 0
            leaseSeconds := ((optionOfLen opts 51 4).map fun value => readBe32 value 0).getD 0
            msgType := msgType
            routerBe := routerOf bp opts }

end ReplyGate

/-- The first datagram of those that arrive in time that passes the gates. -/
def pollForReply (gate : ReplyGate) (datagrams : List (List UInt8)) : Option Reply :=
  datagrams.findSome? fun datagram => gate.read (datagram.take kRecvBufferLen)

/-- With a message type asked for and its gate not relaxed, the reply is of that type. -/
theorem msgType_of_strict {gate : ReplyGate} {datagrams : List (List UInt8)} {r : Reply}
    (hstrict : gate.relaxMsgtypeGate = false) (htype : gate.expectedMsgType ≠ 0)
    (h : pollForReply gate datagrams = some r) : r.msgType = gate.expectedMsgType := by
  obtain ⟨datagram, -, hread⟩ := List.exists_of_findSome?_eq_some h
  unfold ReplyGate.read at hread
  split_ifs at hread
  dsimp only at hread
  split at hread
  · cases hread
  · split_ifs at hread with hgate
    cases hread
    by_contra hne
    exact hgate ⟨htype, hne, hstrict⟩

/-- So it is with no gate relaxed. -/
theorem msgType_of_pollForReply {gate : ReplyGate} {datagrams : List (List UInt8)} {r : Reply}
    (hflavor : gate.behaviorFlavor = .None) (htype : gate.expectedMsgType ≠ 0)
    (h : pollForReply gate datagrams = some r) : r.msgType = gate.expectedMsgType := by
  refine msgType_of_strict ?_ htype h
  rw [ReplyGate.relaxMsgtypeGate, hflavor]
  exact Bool.and_false _

end Tc8Harness.Dut
