import Tc8Harness.Lib.CrcRegister

/-!
# The AUTOSAR CRC routines

`src/autosar/crc.cpp`: CRC-8/SAE-J1850 and CRC-16/CCITT-FALSE, a byte at a time. The CRC-16 of some
bytes is the register of the polynomial 0x1021 after their bits, most significant first
(`crc16Ccitt_toBitVec`), which is what brings burst detection down to bytes, and the loop of the CRC-8
is the register of 0x1D.
-/

namespace Tc8Harness.Autosar

open CrcRegister

/-! ## The routines -/

def kCrc8Xor : UInt8 := 0xFF

def crc8Bit (crc : UInt8) : UInt8 :=
  if crc &&& 0x80 != 0 then (crc <<< 1) ^^^ 0x1D else crc <<< 1

def crc8Byte (crc byte : UInt8) : UInt8 := crc8Bit^[8] (crc ^^^ byte)

def crc8SaeJ1850 (data : List UInt8) (startValue : UInt8) (isFirstCall : Bool) : UInt8 :=
  let crc := if isFirstCall then kCrc8Xor else startValue ^^^ kCrc8Xor
  data.foldl crc8Byte crc ^^^ kCrc8Xor

def crc16Bit (crc : UInt16) : UInt16 :=
  if crc &&& 0x8000 != 0 then (crc <<< 1) ^^^ 0x1021 else crc <<< 1

def crc16Byte (crc : UInt16) (byte : UInt8) : UInt16 := crc16Bit^[8] (crc ^^^ (byte.toUInt16 <<< 8))

def crc16Ccitt (data : List UInt8) (startValue : UInt16) (isFirstCall : Bool) : UInt16 :=
  let crc := if isFirstCall then 0xFFFF else startValue
  data.foldl crc16Byte crc

/-! ## CRC-16 as a register -/

/-- The bits of a byte, most significant first. -/
def byteBits (byte : UInt8) : List Bool := (List.range 8).map byte.toBitVec.getMsbD

def bytesBits (data : List UInt8) : List Bool := data.flatMap byteBits

def kCrc16Poly : BitVec 16 := 0x1021

theorem crc16Bit_toBitVec (crc : UInt16) :
    (crc16Bit crc).toBitVec = shift kCrc16Poly crc.toBitVec := by
  have hmsb : (crc &&& 0x8000 != 0) = crc.toBitVec.msb := by
    rw [Bool.eq_iff_iff, bne_iff_ne, ne_eq, ← UInt16.toNat_inj, UInt16.toNat_and]
    change ¬ crc.toNat &&& 2 ^ 15 = 0 ↔ _
    rw [Nat.and_two_pow, BitVec.msb_eq_getLsbD_last]
    change _ ↔ crc.toNat.testBit 15 = true
    cases crc.toNat.testBit 15 <;> simp
  rw [crc16Bit, shift, hmsb]
  split <;> rfl

theorem word_byteBits (byte : UInt8) :
    (word (byteBits byte) : BitVec 16) = (byte.toUInt16 <<< 8).toBitVec := by
  apply BitVec.eq_of_getMsbD_eq
  intro i hi
  change _ = (byte.toBitVec.setWidth 16 <<< 8).getMsbD i
  rw [getMsbD_word _ hi, BitVec.getMsbD_shiftLeft, BitVec.getMsbD_setWidth, byteBits]
  by_cases hi8 : i < 8
  · rw [List.getD_eq_getElem _ _ (by simpa using hi8)]
    simp
  · rw [List.getD_eq_default _ _ (by simpa using hi8)]
    simp [BitVec.getMsbD_of_ge _ _ (Nat.le_of_not_lt hi8)]

theorem crc16Byte_toBitVec (crc : UInt16) (byte : UInt8) :
    (crc16Byte crc byte).toBitVec = run kCrc16Poly crc.toBitVec (byteBits byte) := by
  have hlength : (byteBits byte).length = 8 := by simp [byteBits]
  have hiterate : ∀ n (c : UInt16), (crc16Bit^[n] c).toBitVec = (shift kCrc16Poly)^[n] c.toBitVec := by
    intro n c
    have hsemi : Function.Semiconj UInt16.toBitVec crc16Bit (shift kCrc16Poly) := crc16Bit_toBitVec
    exact hsemi.iterate_right n c
  rw [crc16Byte, hiterate, run_eq_iterate _ (by omega), hlength, word_byteBits]
  rfl

theorem foldl_crc16Byte_toBitVec (data : List UInt8) (crc : UInt16) :
    (data.foldl crc16Byte crc).toBitVec = run kCrc16Poly crc.toBitVec (bytesBits data) := by
  induction data generalizing crc with
  | nil => rfl
  | cons byte data ih =>
    rw [List.foldl_cons, ih, crc16Byte_toBitVec, ← run_append]
    rfl

theorem crc16Ccitt_toBitVec (data : List UInt8) (startValue : UInt16) :
    (crc16Ccitt data startValue true).toBitVec = run kCrc16Poly 0xFFFF (bytesBits data) :=
  foldl_crc16Byte_toBitVec data 0xFFFF

/-! ## CRC-8 as a register -/

def kCrc8Poly : BitVec 8 := 0x1D

/-- The mask 0x80 reads the top bit of a byte. -/
theorem and_0x80_bne (byte : UInt8) : (byte &&& 0x80 != 0) = byte.toBitVec.msb := by
  rw [Bool.eq_iff_iff, bne_iff_ne, ne_eq, ← UInt8.toNat_inj, UInt8.toNat_and]
  change ¬ byte.toNat &&& 2 ^ 7 = 0 ↔ _
  rw [Nat.and_two_pow, BitVec.msb_eq_getLsbD_last]
  change _ ↔ byte.toNat.testBit 7 = true
  cases byte.toNat.testBit 7 <;> simp

theorem crc8Bit_toBitVec (crc : UInt8) :
    (crc8Bit crc).toBitVec = shift kCrc8Poly crc.toBitVec := by
  rw [crc8Bit, shift, and_0x80_bne]
  split <;> rfl

/-- The bits of a byte fill the register. -/
theorem word8_byteBits (byte : UInt8) : (word (byteBits byte) : BitVec 8) = byte.toBitVec := by
  apply BitVec.eq_of_getMsbD_eq
  intro i hi
  rw [getMsbD_word _ hi, byteBits, List.getD_eq_getElem _ _ (by simpa using hi)]
  simp

theorem crc8Byte_toBitVec (crc byte : UInt8) :
    (crc8Byte crc byte).toBitVec = run kCrc8Poly crc.toBitVec (byteBits byte) := by
  have hlength : (byteBits byte).length = 8 := by simp [byteBits]
  have hsemi : Function.Semiconj UInt8.toBitVec crc8Bit (shift kCrc8Poly) := crc8Bit_toBitVec
  rw [crc8Byte, hsemi.iterate_right 8, run_eq_iterate _ (by omega), hlength, word8_byteBits]
  rfl

theorem foldl_crc8Byte_toBitVec (data : List UInt8) (crc : UInt8) :
    (data.foldl crc8Byte crc).toBitVec = run kCrc8Poly crc.toBitVec (bytesBits data) := by
  induction data generalizing crc with
  | nil => rfl
  | cons byte data ih =>
    rw [List.foldl_cons, ih, crc8Byte_toBitVec, ← run_append]
    rfl

/-! ## Bursts -/

theorem length_bytesBits (data : List UInt8) : (bytesBits data).length = 8 * data.length := by
  induction data with
  | nil => rfl
  | cons byte data ih =>
    rw [bytesBits, List.flatMap_cons, List.length_append]
    change _ + (bytesBits data).length = _
    rw [ih, byteBits, List.length_map, List.length_range, List.length_cons]
    omega

theorem getElem?_bytesBits_none {data : List UInt8} {i : Nat} (h : 8 * data.length ≤ i) :
    (bytesBits data)[i]? = none := by
  rw [List.getElem?_eq_none_iff, length_bytesBits]
  exact h

theorem byteBits_injective : Function.Injective byteBits := by
  intro a b h
  apply UInt8.toBitVec_inj.1
  apply BitVec.eq_of_getMsbD_eq
  intro i hi
  have hbit : (byteBits a)[i]? = (byteBits b)[i]? := by rw [h]
  simpa [byteBits, hi] using hbit

theorem eq_of_bytesBits_eq {a b : List UInt8} (hlength : a.length = b.length)
    (h : bytesBits a = bytesBits b) : a = b := by
  induction a generalizing b with
  | nil => exact (List.eq_nil_of_length_eq_zero hlength.symm).symm
  | cons byte a ih =>
    cases b with
    | nil => simp at hlength
    | cons byte' b =>
      have hbits : byteBits byte ++ bytesBits a = byteBits byte' ++ bytesBits b := h
      obtain ⟨hhead, htail⟩ := List.append_inj hbits (by simp [byteBits])
      rw [byteBits_injective hhead, ih (Nat.succ.inj hlength) htail]

/-- Bytes that differ, and within `window` consecutive bits only. -/
structure Burst (window : Nat) (a b : List UInt8) : Prop where
  length_eq : a.length = b.length
  ne : a ≠ b
  within : ∃ start, ∀ i, (bytesBits a)[i]? ≠ (bytesBits b)[i]? → start ≤ i ∧ i < start + window

theorem bytesBits_append (a b : List UInt8) : bytesBits (a ++ b) = bytesBits a ++ bytesBits b :=
  List.flatMap_append ..

/-- Anything that happens to two bytes is a burst. -/
theorem burst_of_length_two {a b : List UInt8} (ha : a.length = 2) (hb : b.length = 2)
    (hne : a ≠ b) : Burst 16 a b := by
  refine ⟨ha.trans hb.symm, hne, 0, fun i hdiff => ⟨Nat.zero_le i, ?_⟩⟩
  by_contra hge
  apply hdiff
  rw [getElem?_bytesBits_none (by omega), getElem?_bytesBits_none (by omega)]

/-- The CRC-16 tells bytes from what a burst of 16 bits makes of them, whatever stands around
them. -/
theorem Burst.crc16Ccitt_ne {a b : List UInt8} (h : Burst 16 a b) (startValue : UInt16)
    (before after : List UInt8) :
    crc16Ccitt (before ++ a ++ after) startValue true ≠
      crc16Ccitt (before ++ b ++ after) startValue true := by
  intro heq
  obtain ⟨start, hwithin⟩ := h.within
  have hodd : kCrc16Poly.getLsbD 0 = true := rfl
  have hrun := congrArg UInt16.toBitVec heq
  simp only [crc16Ccitt_toBitVec, bytesBits_append, run_append] at hrun
  refine run_ne_of_within hodd ?_ ?_ hwithin _ (run_injective hodd _ hrun)
  · rw [length_bytesBits, length_bytesBits, h.length_eq]
  · intro hbits
    exact h.ne (eq_of_bytesBits_eq h.length_eq hbits)

end Tc8Harness.Autosar
