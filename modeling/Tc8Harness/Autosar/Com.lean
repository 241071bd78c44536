import Tc8Harness.Lib.BitFields
import Tc8Harness.Lib.Loops

/-!
# AUTOSAR COM signals

`src/autosar/com.cpp`: where each bit of a signal sits in its PDU, the database the constructor
accepts, and the packing and unpacking of a PDU. A `size_t` is a `Nat`; the two sums that can exceed
64 bits are taken modulo `2 ^ 64`. A `std::map` is read with `find` and written one key at a time, so
it is a partial function. A call that throws is an `Except.error` and leaves the engine as it was.
-/

namespace Tc8Harness.Autosar

/-! ## Bit placement -/

/-- The byte and the bit within it of a bit of the buffer. -/
structure BitRef where
  byte : Nat
  mask : UInt8
  deriving DecidableEq, Repr

def littleBit (pos : Nat) : BitRef := ⟨pos / 8, UInt8.ofNat (1 <<< (pos % 8))⟩

def bigBit (network : Nat) : BitRef := ⟨network / 8, UInt8.ofNat (1 <<< (7 - network % 8))⟩

def sawtoothToNetwork (startBit : Nat) : Nat := 8 * (startBit / 8) + (7 - startBit % 8)

inductive Endianness where
  | kBig
  | kLittle
  deriving DecidableEq, Repr

structure SignalDef where
  id : UInt32
  startBit : Nat
  bitSize : Nat
  endian : Endianness
  deriving DecidableEq, Repr

structure PduDef where
  id : UInt32
  length : Nat
  signals : List SignalDef
  deriving DecidableEq, Repr

def maskFor (bitSize : Nat) : UInt64 :=
  if bitSize ≥ 64 then ~~~0 else (1 <<< UInt64.ofNat bitSize) - 1

/-- The buffer bit of bit `k` of the signal's value. -/
def signalBit (sig : SignalDef) (k : Nat) : BitRef :=
  match sig.endian with
  | .kLittle => littleBit ((sig.startBit + k) % 2 ^ 64)
  | .kBig => bigBit ((sawtoothToNetwork sig.startBit + (sig.bitSize - 1 - k)) % 2 ^ 64)

def maxByte (sig : SignalDef) : Nat :=
  (List.range sig.bitSize).foldl (fun hi k => max hi (signalBit sig k).byte) 0

/-! ## The engine -/

structure SignalEngine where
  pdus : UInt32 → Option PduDef := fun _ => none
  sigIndex : UInt32 → Option (UInt32 × Nat) := fun _ => none
  txValues : UInt32 → Option UInt64 := fun _ => none
  rxValues : UInt32 → Option UInt64 := fun _ => none

namespace SignalEngine

/-- The constructor's checks of one signal. -/
def addSignal (pdu : PduDef) (e : SignalEngine) (sig : SignalDef × Nat) :
    Except String SignalEngine :=
  if sig.1.bitSize = 0 ∨ sig.1.bitSize > 64 then
    .error "tc8::com::SignalEngine: signal bit_size must be 1..64"
  else if maxByte sig.1 ≥ pdu.length then
    .error "tc8::com::SignalEngine: signal exceeds PDU length"
  else if (e.sigIndex sig.1.id).isSome then
    .error "tc8::com::SignalEngine: duplicate signal id"
  else .ok { e with sigIndex := Function.update e.sigIndex sig.1.id (some (pdu.id, sig.2)) }

def addPdu (e : SignalEngine) (pdu : PduDef) : Except String SignalEngine :=
  if (e.pdus pdu.id).isSome then
    .error "tc8::com::SignalEngine: duplicate PDU id"
  else do
    let e ← pdu.signals.zipIdx.foldlM (addSignal pdu) e
    return { e with pdus := Function.update e.pdus pdu.id (some pdu) }

/-- The constructor. -/
def make (db : List PduDef) : Except String SignalEngine := db.foldlM addPdu {}

def setSignal (e : SignalEngine) (sigId : UInt32) (value : UInt64) : Except String SignalEngine :=
  match e.sigIndex sigId with
  | none => .error "tc8::com::SignalEngine::setSignal: unknown signal id"
  | some _ => .ok { e with txValues := Function.update e.txValues sigId (some value) }

def hasSignal (e : SignalEngine) (sigId : UInt32) : Bool := (e.sigIndex sigId).isSome

/-- The index was made from the database, so `at` finds the PDU and the signal. -/
def signalWidth (e : SignalEngine) (sigId : UInt32) : Nat :=
  match e.sigIndex sigId with
  | none => 0
  | some (pduId, i) =>
    match (e.pdus pduId).bind (·.signals[i]?) with
    | none => 0
    | some sig => (sig.bitSize + 7) / 8

def pduSignals (e : SignalEngine) (pduId : UInt32) : List UInt32 :=
  match e.pdus pduId with
  | none => []
  | some pdu => pdu.signals.map SignalDef.id

def pduLength (e : SignalEngine) (pduId : UInt32) : Nat :=
  match e.pdus pduId with
  | none => 0
  | some pdu => pdu.length

end SignalEngine

/-! ## Packing -/

/-- `buf[ref.byte] | ref.mask`. -/
def orBit (buf : List UInt8) (ref : BitRef) : List UInt8 := buf.modify ref.byte (· ||| ref.mask)

/-- `pdu[ref.byte] & ref.mask`, as a condition. -/
def bitAt (buf : List UInt8) (ref : BitRef) : Bool := buf.getD ref.byte 0 &&& ref.mask != 0

def packSignal (value : UInt64) (buf : List UInt8) (sig : SignalDef) : List UInt8 :=
  (List.range sig.bitSize).foldl (fun buf k =>
    if (value >>> UInt64.ofNat k) &&& 1 != 0 then orBit buf (signalBit sig k) else buf) buf

def unpackSignal (buf : List UInt8) (sig : SignalDef) : UInt64 :=
  (List.range sig.bitSize).foldl (fun value k =>
    if bitAt buf (signalBit sig k) then value ||| (1 <<< UInt64.ofNat k) else value) 0

namespace SignalEngine

/-- The value `packPdu` writes for a signal. -/
def txValue (e : SignalEngine) (sig : SignalDef) : UInt64 :=
  (e.txValues sig.id).getD 0 &&& maskFor sig.bitSize

def packPdu (e : SignalEngine) (pduId : UInt32) : Except String (List UInt8) :=
  match e.pdus pduId with
  | none => .error "tc8::com::SignalEngine::packPdu: unknown PDU id"
  | some pdu =>
    .ok (pdu.signals.foldl (fun buf sig => packSignal (e.txValue sig) buf sig)
      (List.replicate pdu.length 0x00))

def unpackInto (e : SignalEngine) (pduId : UInt32) (buf : List UInt8) :
    Except String SignalEngine :=
  match e.pdus pduId with
  | none => .error "tc8::com::SignalEngine::unpackInto: unknown PDU id"
  | some pdu =>
    if buf.length < pdu.length then
      .error "tc8::com::SignalEngine::unpackInto: buffer shorter than PDU"
    else
      .ok { e with
        rxValues := pdu.signals.foldl (fun rx sig =>
          Function.update rx sig.id (some (unpackSignal buf sig))) e.rxValues }

def lastReceived (e : SignalEngine) (sigId : UInt32) : Option UInt64 := e.rxValues sigId

end SignalEngine

/-! ## Positions

Both numberings name the same bits: `signalBit` is `littleBit` of one position, and what remains of
the sawtooth is that the positions of a signal's bits differ. -/

theorem bigBit_eq_littleBit (network : Nat) :
    bigBit network = littleBit (sawtoothToNetwork network) := by
  have hbyte : sawtoothToNetwork network / 8 = network / 8 := by
    rw [sawtoothToNetwork]
    omega
  have hbit : sawtoothToNetwork network % 8 = 7 - network % 8 := by
    rw [sawtoothToNetwork]
    omega
  rw [bigBit, littleBit, hbyte, hbit]

theorem sawtoothToNetwork_involutive : Function.Involutive sawtoothToNetwork := by
  intro n
  simp only [sawtoothToNetwork]
  omega

/-- The physical position of a bit of the signal. -/
def bitPos (sig : SignalDef) (k : Nat) : Nat :=
  match sig.endian with
  | .kLittle => (sig.startBit + k) % 2 ^ 64
  | .kBig =>
    sawtoothToNetwork ((sawtoothToNetwork sig.startBit + (sig.bitSize - 1 - k)) % 2 ^ 64)

theorem signalBit_eq (sig : SignalDef) (k : Nat) : signalBit sig k = littleBit (bitPos sig k) := by
  unfold signalBit bitPos
  cases sig.endian with
  | kLittle => rfl
  | kBig => exact bigBit_eq_littleBit _

/-- The bits of one signal are distinct, wherever it starts. -/
theorem bitPos_inj {sig : SignalDef} {k l : Nat} (hsize : sig.bitSize ≤ 64) (hk : k < sig.bitSize)
    (hl : l < sig.bitSize) (h : bitPos sig k = bitPos sig l) : k = l := by
  unfold bitPos at h
  cases hendian : sig.endian with
  | kLittle =>
    simp only [hendian] at h
    omega
  | kBig =>
    simp only [hendian] at h
    have hnetwork := sawtoothToNetwork_involutive.injective h
    omega

theorem littleBit_mask_toNat (pos : Nat) : (littleBit pos).mask.toNat = 2 ^ (pos % 8) := by
  have hlt : 2 ^ (pos % 8) < 2 ^ 8 := Nat.pow_lt_pow_right (by omega) (by omega)
  rw [littleBit, UInt8.toNat_ofNat', Nat.one_shiftLeft, Nat.mod_eq_of_lt hlt]

theorem littleBit_injective : Function.Injective littleBit := by
  intro p q h
  have hbyte : p / 8 = q / 8 := congrArg BitRef.byte h
  have hmask : 2 ^ (p % 8) = 2 ^ (q % 8) := by
    rw [← littleBit_mask_toNat, ← littleBit_mask_toNat, h]
  have hbit := Nat.pow_right_injective (by omega : 2 ≤ 2) hmask
  omega

/-! ## Buffers as sets of ones -/

theorem bitAt_littleBit (buf : List UInt8) (p : Nat) :
    bitAt buf (littleBit p) = (buf.getD (p / 8) 0).toNat.testBit (p % 8) := by
  change (buf.getD (p / 8) 0 &&& (littleBit p).mask != 0) = _
  rw [Bool.eq_iff_iff, bne_iff_ne, ne_eq, ← UInt8.toNat_inj, UInt8.toNat_and,
    littleBit_mask_toNat, Nat.and_two_pow]
  generalize (buf.getD (p / 8) 0).toNat.testBit (p % 8) = bit
  cases bit <;> simp

/-- The positions of the ones of a buffer. -/
def ones (buf : List UInt8) : Set Nat := {p | bitAt buf (littleBit p) = true}

theorem mem_ones {buf : List UInt8} {p : Nat} :
    p ∈ ones buf ↔ (buf.getD (p / 8) 0).toNat.testBit (p % 8) = true := by
  rw [← bitAt_littleBit]
  rfl

theorem ones_replicate_zero (n : Nat) : ones (List.replicate n 0x00) = ∅ := by
  ext p
  have hzero : (List.replicate n (0x00 : UInt8)).getD (p / 8) 0 = 0 := by
    rw [List.getD_eq_getElem?_getD, List.getElem?_replicate]
    split <;> rfl
  rw [mem_ones, hzero]
  simp

theorem length_orBit (buf : List UInt8) (ref : BitRef) : (orBit buf ref).length = buf.length :=
  List.length_modify ..

/-- Setting a bit inside the buffer adds its position. -/
theorem ones_orBit {buf : List UInt8} {p : Nat} (hp : p / 8 < buf.length) :
    ones (orBit buf (littleBit p)) = insert p (ones buf) := by
  ext q
  rw [Set.mem_insert_iff, mem_ones, mem_ones, orBit]
  change ((buf.modify (p / 8) _).getD (q / 8) 0).toNat.testBit _ = true ↔ _
  rw [List.getD_eq_getElem?_getD, List.getD_eq_getElem?_getD, List.getElem?_modify]
  by_cases hbyte : p / 8 = q / 8
  · have hpos : p % 8 = q % 8 ↔ q = p := by omega
    simp only [if_pos hbyte]
    rw [← hbyte, List.getElem?_eq_getElem hp, Option.map_eq_map, Option.map_some,
      Option.getD_some, Option.getD_some, UInt8.toNat_or, Nat.testBit_or, littleBit_mask_toNat,
      Nat.testBit_two_pow, Bool.or_eq_true, decide_eq_true_iff, hpos, or_comm]
  · have hne : ¬ q = p := by
      rintro rfl
      exact hbyte rfl
    simp [hbyte, hne]

/-- A buffer is determined by its length and its ones. -/
theorem eq_of_ones_eq {buf buf' : List UInt8} (hlength : buf.length = buf'.length)
    (h : ones buf = ones buf') : buf = buf' := by
  refine List.ext_getElem hlength fun i hi hi' => ?_
  apply UInt8.toNat_inj.1
  apply Nat.eq_of_testBit_eq
  intro j
  by_cases hj : j < 8
  · have hmem : 8 * i + j ∈ ones buf ↔ 8 * i + j ∈ ones buf' := by rw [h]
    have hbyte : (8 * i + j) / 8 = i := by omega
    have hbit : (8 * i + j) % 8 = j := by omega
    rw [mem_ones, mem_ones, hbyte, hbit, List.getD_eq_getElem _ _ hi,
      List.getD_eq_getElem _ _ hi'] at hmem
    exact Bool.eq_iff_iff.2 hmem
  · have hbig : ∀ b : UInt8, b.toNat.testBit j = false := fun b =>
      Nat.testBit_lt_two_pow
        (lt_of_lt_of_le b.toNat_lt (Nat.pow_le_pow_right (by omega) (by omega)))
    rw [hbig, hbig]

end Tc8Harness.Autosar
