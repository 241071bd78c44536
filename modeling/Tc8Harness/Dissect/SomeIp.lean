import Std.Data.TreeMap.Lemmas
import Tc8Harness.Dissect.Decoders

/-!
# SOME/IP messages in a byte string

`src/dissect/someip_header.cpp` and the walks of `src/dissect/someip_dispatcher.cpp`. `splitMessages`
is the walk both delivery paths make: over a UDP datagram, whose messages are numbered, and over the
bytes of a TCP flow, which keep their unparsed tail. The listener calls themselves stand with the
pipeline, which owns the listener.
-/

namespace Tc8Harness.Dissect

open Wire

structure SomeIpHeader where
  serviceId : UInt16
  methodId : UInt16
  length : UInt32
  clientId : UInt16
  sessionId : UInt16
  protocolVersion : UInt8
  interfaceVersion : UInt8
  messageType : UInt8
  returnCode : UInt8
  deriving DecidableEq

def SomeIpHeader.kHeaderSize : Nat := 16

/-- A header and the size of its whole message; `none` for any of the four reasons the source has:
too short, a length below 8, an incomplete message, or another protocol version. -/
def parseSomeIpHeader (data : List UInt8) : Option (SomeIpHeader × Nat) :=
  if data.length < 8 then none
  else
    let lengthField := readBe32 data 4
    if lengthField.toNat < 8 then none
    else
      let total := lengthField.toNat + 8
      if data.length < total then none
      else if data.getD 12 0 ≠ 0x01 then none
      else
        some
          ({ serviceId := readBe16 data 0
             methodId := readBe16 data 2
             length := lengthField
             clientId := readBe16 data 8
             sessionId := readBe16 data 10
             protocolVersion := data.getD 12 0
             interfaceVersion := data.getD 13 0
             messageType := data.getD 14 0
             returnCode := data.getD 15 0 },
           total)

inductive Proto where
  | udp
  | tcp
  deriving DecidableEq

structure Transport where
  proto : Proto
  srcIp : UInt32
  dstIp : UInt32
  srcPort : UInt16
  dstPort : UInt16
  observedTsUs : Int
  deriving DecidableEq

/-- `SomeIpDispatcher::flowKey`, in 64-bit arithmetic. -/
def flowKey (t : Transport) : UInt64 :=
  let src := (t.srcIp.toUInt64 <<< 16) ||| t.srcPort.toUInt64
  let dst := (t.dstIp.toUInt64 <<< 16) ||| t.dstPort.toUInt64
  let mix := src ^^^ (dst * 0x9e3779b97f4a7c15)
  let proto : UInt64 := match t.proto with
    | .udp => 0
    | .tcp => 1
  mix ^^^ (proto <<< 63)

structure SomeIpFrame where
  srcIp : UInt32
  dstIp : UInt32
  srcPort : UInt16
  dstPort : UInt16
  isTcp : Bool
  header : SomeIpHeader
  payload : List UInt8
  observedTsUs : Int
  datagramMsgIndex : Nat := 0
  datagramMsgCount : Nat := 0
  deriving DecidableEq

def makeFrame (t : Transport) (h : SomeIpHeader) (payload : List UInt8) : SomeIpFrame :=
  { srcIp := t.srcIp
    dstIp := t.dstIp
    srcPort := t.srcPort
    dstPort := t.dstPort
    isTcp := t.proto == .tcp
    header := h
    payload := payload
    observedTsUs := t.observedTsUs }

/-- The messages at the front of a byte string and the bytes after them. A message takes 16 bytes at
least, so one step a byte is enough. -/
def splitMessages : Nat → List UInt8 → List (SomeIpHeader × List UInt8) × List UInt8
  | 0, data => ([], data)
  | steps + 1, data =>
    match parseSomeIpHeader data with
    | none => ([], data)
    | some (h, total) =>
      let payload := (data.take total).drop SomeIpHeader.kHeaderSize
      let (messages, rest) := splitMessages steps (data.drop total)
      ((h, payload) :: messages, rest)

/-- The frames `SomeIpDispatcher::deliver` emits for one datagram. The count is a `uint16`. -/
def deliverFrames (t : Transport) (data : List UInt8) : List SomeIpFrame :=
  let frames := (splitMessages data.length data).1.map fun m => makeFrame t m.1 m.2
  let count := frames.length % 65536
  (frames.take count).mapIdx fun i f => { f with datagramMsgIndex := i, datagramMsgCount := count }

/-- The frames `SomeIpDispatcher::feed` emits for a flow's bytes, and what it keeps of them when every
frame was taken. -/
def feedFrames (t : Transport) (buf : List UInt8) : List SomeIpFrame × List UInt8 :=
  let (messages, rest) := splitMessages buf.length buf
  (messages.map fun m => makeFrame t m.1 m.2, rest)

/-- The unparsed bytes of each TCP flow. -/
abbrev Residuals := Std.TreeMap UInt64 (List UInt8)

end Tc8Harness.Dissect
