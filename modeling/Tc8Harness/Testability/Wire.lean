import Mathlib
import Tc8Harness.Someip.Wire

/-!
# The testability wire format

`include/tc8/testability_protocol.h`: the 16-byte header with its reinterpreted SOME/IP fields, the
Method ID that packs group, primitive and event bit, and the parameter encodings both ends share. A
parser returns what it read together with the offset behind it, or `none` where the source returns
`false`.

The last section has the rules by which a parser reads a field that was appended at its offset,
whatever follows: `readVint8_appendVint8` and `readText_appendText` for the two variable fields,
`readU16_append` for a scalar.
-/

namespace Tc8Harness.Testability

open BigEndian Wire Someip

/-! ## Constants -/

def kDefaultServiceId : UInt16 := 0x0105
def kProtocolVersion : UInt8 := 0x01
def kInterfaceVersion : UInt8 := 0x01

def kTidRequest : UInt8 := 0x00
def kTidResponse : UInt8 := 0x80
def kTidEvent : UInt8 := 0x02

def kEventBit : UInt16 := 0x8000

def kGidGeneral : UInt8 := 0x00
def kGidUdp : UInt8 := 0x01
def kGidTcp : UInt8 := 0x02
def kGidIcmp : UInt8 := 0x03
def kGidIcmpv6 : UInt8 := 0x04
def kGidIp : UInt8 := 0x05
def kGidIpv6 : UInt8 := 0x06
def kGidEth : UInt8 := 0x0B

def kPidGetVersion : UInt8 := 0x01
def kPidStartTest : UInt8 := 0x02
def kPidEndTest : UInt8 := 0x03

def kPidCloseSocket : UInt8 := 0x00
def kPidCreateAndBind : UInt8 := 0x01
def kPidSendData : UInt8 := 0x02
def kPidReceiveAndForward : UInt8 := 0x03
def kPidListenAndAccept : UInt8 := 0x04
def kPidConnect : UInt8 := 0x05
def kPidConfigureSocket : UInt8 := 0x06
def kPidShutdown : UInt8 := 0x07

def kPidEchoRequest : UInt8 := 0x00
def kPidInterfaceUp : UInt8 := 0x00
def kPidInterfaceDown : UInt8 := 0x01
def kPidStaticAddress : UInt8 := 0x00
def kPidStaticRoute : UInt8 := 0x01

def kShutdownRd : UInt8 := 0x00
def kShutdownWr : UInt8 := 0x01
def kShutdownRdWr : UInt8 := 0x02

def kSendFlagUrg : UInt8 := 0x20

def kRidEOk : UInt8 := 0x00
def kRidENok : UInt8 := 0x01
def kRidENtf : UInt8 := 0xFF
def kRidEInv : UInt8 := 0xFC
def kRidEIsd : UInt8 := 0xEF
def kRidEUcs : UInt8 := 0xEE
def kRidEUbs : UInt8 := 0xED
def kRidETcpInr : UInt8 := 0xE8
def kRidETcpCae : UInt8 := 0xE7
def kRidETcpCoc : UInt8 := 0xE6
def kRidETcpCre : UInt8 := 0xE4
def kRidETcpCat : UInt8 := 0xE3
def kRidETcpCor : UInt8 := 0xE2

def kVersionMajor : UInt16 := 1
def kVersionMinor : UInt16 := 2
def kVersionPatch : UInt16 := 0

/-! ## The Method ID -/

def methodId (gid pid : UInt8) (event : Bool := false) : UInt16 :=
  (if event then kEventBit else 0) ||| ((gid &&& 0x7F).toUInt16 <<< 8) ||| pid.toUInt16

def gidOf (method : UInt16) : UInt8 := ((method >>> 8) &&& 0x7F).toUInt8

def pidOf (method : UInt16) : UInt8 := (method &&& 0xFF).toUInt8

def isEvent (method : UInt16) : Bool := method &&& kEventBit ≠ 0

/-! ## The header -/

structure Header where
  serviceId : UInt16 := kDefaultServiceId
  methodId : UInt16 := 0
  length : UInt32 := 8
  clientId : UInt16 := 0
  sessionId : UInt16 := 0
  protocolVersion : UInt8 := kProtocolVersion
  interfaceVersion : UInt8 := kInterfaceVersion
  tid : UInt8 := kTidRequest
  rid : UInt8 := kRidEOk
  deriving DecidableEq, Repr

/-- The LEN field is computed; the header's own `length` is an output of the parser. -/
def buildMessage (h : Header) (dat : List UInt8) : List UInt8 :=
  putBe16 h.serviceId ++
  (putBe16 h.methodId ++
  (putBe32 (8 + UInt32.ofNat dat.length) ++
  (putBe16 h.clientId ++
  (putBe16 h.sessionId ++
  ([h.protocolVersion, h.interfaceVersion, h.tid, h.rid] ++ dat)))))

def parseHeader (data : List UInt8) : Option Header :=
  if data.length < kHeaderSize then none
  else
    some
      { serviceId := readBe16 data 0
        methodId := readBe16 data 2
        length := readBe32 data 4
        clientId := readBe16 data 8
        sessionId := readBe16 data 10
        protocolVersion := data.getD 12 0
        interfaceVersion := data.getD 13 0
        tid := data.getD 14 0
        rid := data.getD 15 0 }

/-! ## Parameters -/

def appendU16 (dat : List UInt8) (v : UInt16) : List UInt8 := dat ++ putBe16 v

/-- A byte string behind its 16-bit length. -/
def appendVint8 (dat p : List UInt8) : List UInt8 := dat ++ (putBe16 (UInt16.ofNat p.length) ++ p)

/-- `ipBe` is an address as it lies in memory. -/
def appendIpv4Addr (dat : List UInt8) (ipBe : UInt32) : List UInt8 := appendVint8 dat (bytes32 ipBe)

def appendIpv6Addr (dat : List UInt8) (addr : Vector UInt8 16) : List UInt8 :=
  appendVint8 dat addr.toList

def kBom : List UInt8 := [0xEF, 0xBB, 0xBF]

def appendText (dat text : List UInt8) : List UInt8 :=
  if text = [] then dat ++ putBe16 0
  else
    dat ++ (putBe16 (UInt16.ofNat (kBom.length + text.length + 1)) ++ (kBom ++ (text ++ [0x00])))

def readU16 (dat : List UInt8) (off : Nat) : UInt16 := readBe16 dat off

/-- The bytes of the field at `off` and the offset behind them. -/
def readVint8 (dat : List UInt8) (off : Nat) : Option (List UInt8 × Nat) :=
  if off + 2 > dat.length then none
  else
    let n := (readU16 dat off).toNat
    if off + 2 + n > dat.length then none
    else some ((dat.drop (off + 2)).take n, off + 2 + n)

/-- The text between a leading BOM and a trailing NUL, each dropped where it is there. -/
def textOf (body : List UInt8) : List UInt8 :=
  let start := if body.take 3 = kBom then 3 else 0
  let stop := if start < body.length ∧ body.getD (body.length - 1) 0 = 0x00 then body.length - 1
    else body.length
  (body.take stop).drop start

def readText (dat : List UInt8) (off : Nat) : Option (List UInt8 × Nat) :=
  match readVint8 dat off with
  | none => none
  | some (body, off) => some (textOf body, off)

/-! ## Reading what was written -/

section MethodId

variable (gid pid : UInt8) (event : Bool)

theorem methodId_toBitVec : (methodId gid pid event).toBitVec =
    (if event then 0x8000#16 else 0#16) ||| ((gid.toBitVec &&& 0x7F#8).setWidth 16 <<< 8) |||
      pid.toBitVec.setWidth 16 := by
  cases event <;> rfl

theorem gidOf_methodId : gidOf (methodId gid pid event) = gid &&& 0x7F := by
  apply UInt8.eq_of_toBitVec_eq
  ext i hi
  simp only [gidOf, UInt16.toBitVec_toUInt8, UInt16.toBitVec_and, UInt16.toBitVec_shiftRight,
    methodId_toBitVec]
  interval_cases i <;> cases event <;> simp [BitVec.getElem_setWidth]

theorem pidOf_methodId : pidOf (methodId gid pid event) = pid := by
  apply UInt8.eq_of_toBitVec_eq
  ext i hi
  simp only [pidOf, UInt16.toBitVec_toUInt8, UInt16.toBitVec_and, methodId_toBitVec]
  interval_cases i <;> cases event <;> simp

theorem isEvent_methodId : isEvent (methodId gid pid event) = event := by
  have hbits : methodId gid pid event &&& kEventBit = if event then kEventBit else 0 := by
    apply UInt16.eq_of_toBitVec_eq
    ext i hi
    rw [UInt16.toBitVec_and, methodId_toBitVec]
    interval_cases i <;> cases event <;> simp [kEventBit, BitVec.getElem_setWidth]
  rw [isEvent, hbits]
  cases event <;> rfl

end MethodId

@[simp] theorem length_appendU16 (dat : List UInt8) (v : UInt16) :
    (appendU16 dat v).length = dat.length + 2 := by simp [appendU16]

@[simp] theorem length_appendVint8 (dat p : List UInt8) :
    (appendVint8 dat p).length = dat.length + 2 + p.length := by
  simp [appendVint8, Nat.add_assoc]

@[simp] theorem length_buildMessage (h : Header) (dat : List UInt8) :
    (buildMessage h dat).length = kHeaderSize + dat.length := by
  simp [buildMessage, kHeaderSize]
  omega

/-- The header reads back with the LEN field of the message. -/
theorem parseHeader_buildMessage (h : Header) (dat : List UInt8) :
    parseHeader (buildMessage h dat) = some { h with length := 8 + UInt32.ofNat dat.length } := by
  have hlen : ¬ (buildMessage h dat).length < kHeaderSize := by simp
  simp only [parseHeader, if_neg hlen]
  simp only [buildMessage, readBe16, readBe32]
  simp (disch := simp) only [readBe_append_right, getD_append_right, length_putBe16,
    length_putBe32, Nat.reduceSub, readBe_putBe16, readBe_putBe32, UInt16.ofNat_toNat,
    UInt32.ofNat_toNat]
  rfl

theorem drop_buildMessage (h : Header) (dat : List UInt8) :
    (buildMessage h dat).drop kHeaderSize = dat := by
  have hsplit : buildMessage h dat =
      (putBe16 h.serviceId ++ (putBe16 h.methodId ++ (putBe32 (8 + UInt32.ofNat dat.length) ++
        (putBe16 h.clientId ++ (putBe16 h.sessionId ++
          [h.protocolVersion, h.interfaceVersion, h.tid, h.rid]))))) ++ dat := by
    simp [buildMessage]
  rw [hsplit]
  exact List.drop_left' (by simp [kHeaderSize])

section Fields

variable {pre rest : List UInt8}

theorem readU16_appendU16 (v : UInt16) : readU16 (appendU16 pre v ++ rest) pre.length = v := by
  rw [readU16, readBe16, appendU16, List.append_assoc, readBe_append_right (le_refl _), Nat.sub_self,
    readBe_putBe16, UInt16.ofNat_toNat]

/-- **A byte string reads back** at the offset it was appended at. -/
theorem readVint8_appendVint8 {p : List UInt8} (hp : p.length ≤ 65535) :
    readVint8 (appendVint8 pre p ++ rest) pre.length = some (p, (appendVint8 pre p).length) := by
  have hn : (readU16 (appendVint8 pre p ++ rest) pre.length).toNat = p.length := by
    have hlow : readU16 (appendU16 pre (UInt16.ofNat p.length) ++ (p ++ rest)) pre.length = _ :=
      readU16_appendU16 (UInt16.ofNat p.length)
    rw [appendU16, List.append_assoc, ← List.append_assoc (putBe16 _),
      ← List.append_assoc pre] at hlow
    rw [appendVint8, hlow, UInt16.toNat_ofNat']
    exact Nat.mod_eq_of_lt (by omega)
  have hbody : (appendVint8 pre p ++ rest).drop (pre.length + 2) = p ++ rest := by
    rw [appendVint8, List.append_assoc, List.append_assoc, ← List.append_assoc pre]
    exact List.drop_left' (by simp)
  rw [readVint8, if_neg (by simp; omega)]
  simp only [hn, hbody]
  rw [if_neg (by simp), List.take_left, length_appendVint8]

theorem textOf_nil : textOf [] = [] := rfl

theorem textOf_framed (text : List UInt8) : textOf (kBom ++ (text ++ [0x00])) = text := by
  have hbom : (kBom ++ (text ++ [0x00])).take 3 = kBom := List.take_left' rfl
  have hlen : (kBom ++ (text ++ [0x00])).length = text.length + 4 := by
    simp [kBom]
  have hlast : (kBom ++ (text ++ [0x00])).getD (text.length + 4 - 1) 0 = 0x00 := by
    rw [← List.append_assoc, List.getD_append_right _ _ _ _ (by simp [kBom])]
    simp [kBom]
  simp only [textOf, hbom, hlen, hlast, if_true]
  rw [if_pos ⟨by omega, trivial⟩, ← List.append_assoc, List.take_left' (by simp [kBom])]
  exact List.drop_left' rfl

/-- The field `appendText` writes: a byte string, empty for an empty text. -/
theorem appendText_eq (pre text : List UInt8) :
    appendText pre text =
      appendVint8 pre (if text = [] then [] else kBom ++ (text ++ [0x00])) := by
  by_cases h : text = []
  · simp [appendText, appendVint8, h]
  · have hlen : (kBom ++ (text ++ [0x00])).length = kBom.length + text.length + 1 := by
      simp [Nat.add_assoc]
    rw [appendText, if_neg h, if_neg h, appendVint8, hlen]

/-- **A text reads back**, whatever bytes it holds. -/
theorem readText_appendText {text : List UInt8} (ht : text.length ≤ 65531) :
    readText (appendText pre text ++ rest) pre.length = some (text, (appendText pre text).length) := by
  have hfit : (if text = [] then [] else kBom ++ (text ++ [0x00])).length ≤ 65535 := by
    split
    · simp
    · simp [kBom]
      omega
  rw [readText, appendText_eq, readVint8_appendVint8 hfit]
  by_cases h : text = []
  · simp [h, textOf_nil]
  · simp [h, textOf_framed]

end Fields

end Tc8Harness.Testability
