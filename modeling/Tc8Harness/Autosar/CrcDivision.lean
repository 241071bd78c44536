import Tc8Harness.Autosar.Crc
import Tc8Harness.Lib.BinaryPoly

/-!
# The CRC contract

What `crc.h` promises of the two routines. A CRC resumed from the value an earlier call returned is the
CRC of the whole, with either start and for every cut, and a first call returns the remainder of a long
division over GF(2): CRC-16 by 0x11021, CRC-8, under its final XOR, by 0x11D.
-/

namespace Tc8Harness.Autosar

open CrcRegister Polynomial

/-! ## Chaining -/

theorem crc8SaeJ1850_append (a b : List UInt8) (startValue : UInt8) (isFirstCall : Bool) :
    crc8SaeJ1850 b (crc8SaeJ1850 a startValue isFirstCall) false =
      crc8SaeJ1850 (a ++ b) startValue isFirstCall := by
  unfold crc8SaeJ1850
  dsimp only
  -- the resumed call takes the final XOR off again
  rw [if_neg Bool.false_ne_true, UInt8.xor_assoc, UInt8.xor_self, UInt8.xor_zero, List.foldl_append]

theorem crc16Ccitt_append (a b : List UInt8) (startValue : UInt16) (isFirstCall : Bool) :
    crc16Ccitt b (crc16Ccitt a startValue isFirstCall) false =
      crc16Ccitt (a ++ b) startValue isFirstCall := by
  unfold crc16Ccitt
  dsimp only
  rw [if_neg Bool.false_ne_true, List.foldl_append]

/-! ## Division -/

/-- The message with an initial value of `n` bytes 0xFF folded into its first bytes. -/
def foldInitial (n : Nat) (a : List UInt8) : List UInt8 := (a.take n).map (0xFF ^^^ ·) ++ a.drop n

theorem byteBits_complement (byte : UInt8) : byteBits (0xFF ^^^ byte) = (byteBits byte).map not := by
  unfold byteBits
  rw [List.map_map]
  apply List.map_congr_left
  intro i hi
  have hones : (0xFF : UInt8).toBitVec.getMsbD i = true := by
    have hall : ∀ i < 8, (0xFF : UInt8).toBitVec.getMsbD i = true := by decide
    exact hall i (List.mem_range.mp hi)
  rw [UInt8.toBitVec_xor, BitVec.getMsbD_xor, hones, Function.comp_apply, Bool.true_xor]

theorem bytesBits_complement (a : List UInt8) :
    bytesBits (a.map (0xFF ^^^ ·)) = (bytesBits a).map not := by
  unfold bytesBits
  rw [List.flatMap_map, List.map_flatMap]
  exact List.flatMap_congr fun byte _ => byteBits_complement byte

theorem bytesBits_foldInitial {n : Nat} {a : List UInt8} (h : n ≤ a.length) :
    bytesBits (foldInitial n a) =
      ((bytesBits a).take (8 * n)).map not ++ (bytesBits a).drop (8 * n) := by
  have hlength : (bytesBits (a.take n)).length = 8 * n := by
    rw [length_bytesBits, List.length_take, Nat.min_eq_left h]
  have hsplit : bytesBits a = bytesBits (a.take n) ++ bytesBits (a.drop n) := by
    rw [← bytesBits_append, List.take_append_drop]
  rw [foldInitial, bytesBits_append, bytesBits_complement, hsplit, ← hlength, List.take_left,
    List.drop_left]

/-- A start value of `n` bytes 0xFF is folded into a message that has so many bytes. -/
theorem dividend_foldInitial {n : Nat} {a : List UInt8} (h : n ≤ a.length) :
    dividend (BitVec.allOnes (8 * n)) (bytesBits a) =
      messagePoly (bytesBits (foldInitial n a)) * X ^ (8 * n) := by
  have hbits : 8 * n ≤ (bytesBits a).length := by
    rw [length_bytesBits]
    omega
  rw [bytesBits_foldInitial h, dividend_allOnes hbits]

theorem crc8_division (a : List UInt8) (startValue : UInt8) :
    toPoly (crc8SaeJ1850 a startValue true ^^^ kCrc8Xor).toBitVec =
      dividend (0xFF : BitVec 8) (bytesBits a) %ₘ toPoly (0x11D : BitVec 9) := by
  have hregister : crc8SaeJ1850 a startValue true ^^^ kCrc8Xor = a.foldl crc8Byte kCrc8Xor := by
    unfold crc8SaeJ1850
    rw [if_pos rfl, UInt8.xor_assoc, UInt8.xor_self, UInt8.xor_zero]
  have hmodulus : toPoly (0x11D : BitVec 9) = modulus kCrc8Poly := toPoly_cons kCrc8Poly
  rw [hregister, foldl_crc8Byte_toBitVec, toPoly_run, hmodulus]
  rfl

theorem crc16_division (a : List UInt8) (startValue : UInt16) :
    toPoly (crc16Ccitt a startValue true).toBitVec =
      dividend (0xFFFF : BitVec 16) (bytesBits a) %ₘ toPoly (0x11021 : BitVec 17) := by
  have hmodulus : toPoly (0x11021 : BitVec 17) = modulus kCrc16Poly := toPoly_cons kCrc16Poly
  rw [crc16Ccitt_toBitVec, toPoly_run, hmodulus]

/-- **The CRC contract.** Chained calls equal one pass, and a first call leaves the remainder of the
message, with the initial value folded in and moved up by the width, by the CRC's polynomial. -/
theorem crc_chained_and_divided (a b : List UInt8) (start8 : UInt8) (start16 : UInt16)
    (isFirstCall : Bool) :
    (crc8SaeJ1850 b (crc8SaeJ1850 a start8 isFirstCall) false =
        crc8SaeJ1850 (a ++ b) start8 isFirstCall ∧
      crc16Ccitt b (crc16Ccitt a start16 isFirstCall) false =
        crc16Ccitt (a ++ b) start16 isFirstCall) ∧
    (toPoly (crc8SaeJ1850 a start8 true ^^^ kCrc8Xor).toBitVec =
        dividend (0xFF : BitVec 8) (bytesBits a) %ₘ toPoly (0x11D : BitVec 9) ∧
      (1 ≤ a.length → dividend (0xFF : BitVec 8) (bytesBits a) =
        messagePoly (bytesBits (foldInitial 1 a)) * X ^ 8)) ∧
    (toPoly (crc16Ccitt a start16 true).toBitVec =
        dividend (0xFFFF : BitVec 16) (bytesBits a) %ₘ toPoly (0x11021 : BitVec 17) ∧
      (2 ≤ a.length → dividend (0xFFFF : BitVec 16) (bytesBits a) =
        messagePoly (bytesBits (foldInitial 2 a)) * X ^ 16)) :=
  ⟨⟨crc8SaeJ1850_append a b start8 isFirstCall, crc16Ccitt_append a b start16 isFirstCall⟩,
    ⟨crc8_division a start8, fun h => dividend_foldInitial (n := 1) h⟩,
    ⟨crc16_division a start16, fun h => dividend_foldInitial (n := 2) h⟩⟩

end Tc8Harness.Autosar
