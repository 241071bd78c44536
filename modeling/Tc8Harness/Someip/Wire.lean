import Mathlib
import Tc8Harness.Dissect.Decoders
import Tc8Harness.SomeipTp.Wire

/-!
# The SOME/IP header on the wire

`include/tc8/someip/wire.h` and `protocol.h`: the big-endian appenders, the 16-byte header and its
writer and reader. The readers are those of the dissector. The lemmas of the first section are the
rules by which every later round trip reads a field out of appended pieces: skip the pieces before
it, then read the word as written.
-/

namespace Tc8Harness.Someip

open BigEndian Wire
open SomeipTp (Buffer)

/-! ## Fields of appended pieces -/

section Fields

variable {a b rest : List UInt8} {off size : Nat}

/-- A field behind the first piece is a field of the others. -/
theorem readBe_append_right (h : a.length ≤ off) :
    readBe (a ++ b) off size = readBe b (off - a.length) size := by
  rw [readBe, readBe, List.drop_append, List.drop_eq_nil_of_le h, List.nil_append]

/-- A field inside the first piece does not see the others. -/
theorem readBe_append_left (h : off + size ≤ a.length) :
    readBe (a ++ b) off size = readBe a off size := by
  have hfit : size ≤ (a.drop off).length := by
    rw [List.length_drop]
    omega
  rw [readBe, readBe, List.drop_append_of_le_length (by omega), List.take_append_of_le_length hfit]

/-- A field of the bytes from `src` on. -/
theorem readBe_drop (p : List UInt8) (src off size : Nat) :
    readBe p (src + off) size = readBe (p.drop src) off size := by
  rw [readBe, readBe, List.drop_drop]

/-- A copied word behind the first piece is one of the others. -/
theorem copy32_append_right (h : a.length ≤ off) : copy32 (a ++ b) off = copy32 b (off - a.length) := by
  rw [copy32, copy32, List.drop_append, List.drop_eq_nil_of_le h, List.nil_append]

theorem readBe_toBE (w n : Nat) : readBe (toBE w n ++ rest) 0 w = n % 256 ^ w := by
  rw [readBe, List.drop_zero, List.take_left' (length_toBE w n), ofBE_toBE_mod]

theorem readBe_singleton (v : UInt8) : readBe (v :: rest) 0 1 = v.toNat := by
  simp [readBe, ofBE]

end Fields

/-! ## Words -/

def putBe16 (v : UInt16) : List UInt8 := toBE 2 v.toNat

/-- The low three bytes; the source asserts that nothing is above them. -/
def putBe24 (v : UInt32) : List UInt8 := toBE 3 v.toNat

def putBe32 (v : UInt32) : List UInt8 := toBE 4 v.toNat

@[simp] theorem length_putBe16 (v : UInt16) : (putBe16 v).length = 2 := length_toBE 2 _

@[simp] theorem length_putBe24 (v : UInt32) : (putBe24 v).length = 3 := length_toBE 3 _

@[simp] theorem length_putBe32 (v : UInt32) : (putBe32 v).length = 4 := length_toBE 4 _

theorem readBe_putBe16 (v : UInt16) (rest : List UInt8) :
    readBe (putBe16 v ++ rest) 0 2 = v.toNat := by
  rw [putBe16, readBe_toBE]
  exact Nat.mod_eq_of_lt v.toNat_lt

theorem readBe_putBe24 (v : UInt32) (rest : List UInt8) :
    readBe (putBe24 v ++ rest) 0 3 = v.toNat % 2 ^ 24 := readBe_toBE 3 _

theorem readBe_putBe32 (v : UInt32) (rest : List UInt8) :
    readBe (putBe32 v ++ rest) 0 4 = v.toNat := by
  rw [putBe32, readBe_toBE]
  exact Nat.mod_eq_of_lt v.toNat_lt

@[simp] theorem length_bytes32 (v : UInt32) : (bytes32 v).length = 4 := by
  simp [bytes32]

/-- An address written to memory and copied back. -/
theorem copy32_bytes32 (v : UInt32) (rest : List UInt8) : copy32 (bytes32 v ++ rest) 0 = v := by
  rw [copy32, List.drop_zero, List.take_left' (length_bytes32 v), bytes32, List.reverse_reverse,
    ofBE_toBE v.toNat_lt, UInt32.ofNat_toNat]

/-! ## Protocol constants -/

inductive MessageType where
  | REQUEST
  | REQUEST_NO_RETURN
  | NOTIFICATION
  | RESPONSE
  | ERROR
  | TP_REQUEST
  | TP_REQUEST_NO_RETURN
  | TP_NOTIFICATION
  | TP_RESPONSE
  | TP_ERROR
  deriving DecidableEq, Repr

def MessageType.toUInt8 : MessageType → UInt8
  | REQUEST => 0x00
  | REQUEST_NO_RETURN => 0x01
  | NOTIFICATION => 0x02
  | RESPONSE => 0x80
  | ERROR => 0x81
  | TP_REQUEST => 0x20
  | TP_REQUEST_NO_RETURN => 0x21
  | TP_NOTIFICATION => 0x22
  | TP_RESPONSE => 0xA0
  | TP_ERROR => 0xA1

inductive ReturnCode where
  | E_OK
  | E_NOT_OK
  | E_UNKNOWN_SERVICE
  | E_UNKNOWN_METHOD
  | E_NOT_READY
  | E_NOT_REACHABLE
  | E_TIMEOUT
  | E_WRONG_PROTOCOL_VERSION
  | E_WRONG_INTERFACE_VERSION
  | E_MALFORMED_MESSAGE
  | E_WRONG_MESSAGE_TYPE
  deriving DecidableEq, Repr

def ReturnCode.toUInt8 : ReturnCode → UInt8
  | E_OK => 0x00
  | E_NOT_OK => 0x01
  | E_UNKNOWN_SERVICE => 0x02
  | E_UNKNOWN_METHOD => 0x03
  | E_NOT_READY => 0x04
  | E_NOT_REACHABLE => 0x05
  | E_TIMEOUT => 0x06
  | E_WRONG_PROTOCOL_VERSION => 0x07
  | E_WRONG_INTERFACE_VERSION => 0x08
  | E_MALFORMED_MESSAGE => 0x09
  | E_WRONG_MESSAGE_TYPE => 0x0A

def kSdServiceId : UInt16 := 0xFFFF
def kSdMethodId : UInt16 := 0x8100

/-! ## The header -/

/-- The 16-byte header; `length` counts the bytes from the Request ID to the end of the payload. -/
structure Header where
  serviceId : UInt16 := 0
  methodId : UInt16 := 0
  length : UInt32 := 0
  clientId : UInt16 := 0
  sessionId : UInt16 := 0
  protocolVersion : UInt8 := 0x01
  interfaceVersion : UInt8 := 0x01
  messageType : UInt8 := MessageType.REQUEST.toUInt8
  returnCode : UInt8 := ReturnCode.E_OK.toUInt8
  deriving DecidableEq, Repr

def kHeaderSize : Nat := 16

def appendHeader (h : Header) : List UInt8 :=
  putBe16 h.serviceId ++
  (putBe16 h.methodId ++
  (putBe32 h.length ++
  (putBe16 h.clientId ++
  (putBe16 h.sessionId ++
  [h.protocolVersion, h.interfaceVersion, h.messageType, h.returnCode]))))

/-- `parseHeader`: `none` where the source returns `false` and leaves `out` alone. -/
def parseHeader (data : Buffer) : Option Header :=
  match data with
  | .null _ => none
  | .bytes p =>
    if p.length < kHeaderSize then none
    else
      some
        { serviceId := readBe16 p 0
          methodId := readBe16 p 2
          length := readBe32 p 4
          clientId := readBe16 p 8
          sessionId := readBe16 p 10
          protocolVersion := p.getD 12 0
          interfaceVersion := p.getD 13 0
          messageType := p.getD 14 0
          returnCode := p.getD 15 0 }

@[simp] theorem length_appendHeader (h : Header) : (appendHeader h).length = 16 := by
  simp [appendHeader]

theorem getD_append_right {a b : List UInt8} {i : Nat} (h : a.length ≤ i) (d : UInt8) :
    (a ++ b).getD i d = b.getD (i - a.length) d := List.getD_append_right a b d i h

/-- **The header reads back as written**, whatever follows it. -/
theorem parseHeader_appendHeader (h : Header) (rest : List UInt8) :
    parseHeader (.bytes (appendHeader h ++ rest)) = some h := by
  have hlen : ¬ (appendHeader h ++ rest).length < kHeaderSize := by simp [kHeaderSize]
  simp only [parseHeader, if_neg hlen]
  simp only [appendHeader, List.append_assoc, readBe16, readBe32]
  simp (disch := simp) only [readBe_append_right, getD_append_right, length_putBe16,
    length_putBe32, Nat.reduceSub, readBe_putBe16, readBe_putBe32, UInt16.ofNat_toNat,
    UInt32.ofNat_toNat]
  rfl

end Tc8Harness.Someip
