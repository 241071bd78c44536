import Tc8Harness.Autosar.E2e
import Tc8Harness.Autosar.CrcDivision

/-!
# The Data ID of Profile 11

The CRC of Profile 11 is one CRC-8 over the Data ID and the bytes around the CRC byte
(`computeP11Crc_eq`). In NIBBLE mode the low byte of the Data ID is in it and bits 8 to 11 are not: they
travel in the header, where the receiver could recover them. The checker does not compare them, so that
it tells Data IDs apart by their low bytes alone (`nibble_error_iff`).
-/

namespace Tc8Harness.Autosar

open CrcRegister

/-! ## The CRC as one pass -/

/-- The Data ID as the CRC covers it. -/
def Profile11Config.dataIdBytes (cfg : Profile11Config) : List UInt8 :=
  [(cfg.dataId &&& 0xFF).toUInt8,
    if cfg.dataIdMode = .kBoth then ((cfg.dataId >>> 8) &&& 0xFF).toUInt8 else 0x00]

/-- The bytes of the PDU that the CRC covers. -/
def covered11 (data : List UInt8) (offset : UInt64) : List UInt8 :=
  data.take offset.toNat ++ data.drop (offset + 1).toNat

/-- A resumed call over nothing returns what it was given. -/
theorem crc8SaeJ1850_nil (crc : UInt8) : crc8SaeJ1850 [] crc false = crc := by
  unfold crc8SaeJ1850
  dsimp only
  rw [if_neg Bool.false_ne_true, List.foldl_nil, UInt8.xor_assoc, UInt8.xor_self, UInt8.xor_zero]

theorem computeP11Crc_eq (data : List UInt8) (cfg : Profile11Config) :
    computeP11Crc data cfg =
      crc8SaeJ1850 (cfg.dataIdBytes ++ covered11 data cfg.offset) kP11CrcXor false ^^^ kP11CrcXor := by
  have htake : ∀ crc, (if cfg.offset > 0 then crc8SaeJ1850 (data.take cfg.offset.toNat) crc false
      else crc) = crc8SaeJ1850 (data.take cfg.offset.toNat) crc false := by
    intro crc
    split
    · rfl
    · next hzero =>
      have hoffset : cfg.offset.toNat = 0 := by
        rw [gt_iff_lt, UInt64.lt_iff_toNat_lt] at hzero
        exact Nat.le_zero.mp (Nat.le_of_not_lt hzero)
      rw [hoffset, List.take_zero, crc8SaeJ1850_nil]
  have hdrop : ∀ crc, (if (cfg.offset + 1).toNat < data.length then
      crc8SaeJ1850 (data.drop (cfg.offset + 1).toNat) crc false else crc) =
      crc8SaeJ1850 (data.drop (cfg.offset + 1).toNat) crc false := by
    intro crc
    split
    · rfl
    · next hshort => rw [List.drop_eq_nil_of_le (Nat.le_of_not_lt hshort), crc8SaeJ1850_nil]
  unfold computeP11Crc
  dsimp only
  rw [hdrop, htake, crc8SaeJ1850_append, crc8SaeJ1850_append, crc8SaeJ1850_append]
  rw [Profile11Config.dataIdBytes, covered11]
  simp only [List.cons_append, List.nil_append]

/-! ## The first byte -/

theorem crc8Bit_injective : Function.Injective crc8Bit := by
  intro a b h
  have hshift := congrArg UInt8.toBitVec h
  rw [crc8Bit_toBitVec, crc8Bit_toBitVec] at hshift
  exact UInt8.toBitVec_inj.mp (shift_injective rfl hshift)

theorem crc8Byte_injective (crc : UInt8) : Function.Injective (crc8Byte crc) := by
  intro a b h
  have hbyte : crc ^^^ a = crc ^^^ b := crc8Bit_injective.iterate 8 h
  exact (UInt8.xor_right_inj crc).mp hbyte

theorem foldl_crc8Byte_injective (data : List UInt8) :
    Function.Injective (data.foldl crc8Byte) := by
  intro a b h
  have hrun := congrArg UInt8.toBitVec h
  rw [foldl_crc8Byte_toBitVec, foldl_crc8Byte_toBitVec] at hrun
  exact UInt8.toBitVec_inj.mp (run_injective rfl _ hrun)

/-- The first byte tells the CRCs of two messages apart that agree behind it. -/
theorem crc8SaeJ1850_cons_inj {a b : UInt8} {data : List UInt8} {startValue : UInt8}
    {isFirstCall : Bool}
    (h : crc8SaeJ1850 (a :: data) startValue isFirstCall =
      crc8SaeJ1850 (b :: data) startValue isFirstCall) : a = b :=
  crc8Byte_injective _ (foldl_crc8Byte_injective data ((UInt8.xor_left_inj kCrc8Xor).mp h))

/-- In NIBBLE mode the CRC is as good as the low byte of the Data ID. -/
theorem computeP11Crc_nibble_inj {cfg cfg' : Profile11Config} (hmode : cfg.dataIdMode = .kNibble)
    (hmode' : cfg'.dataIdMode = .kNibble) (hoffset : cfg'.offset = cfg.offset) (data : List UInt8) :
    computeP11Crc data cfg = computeP11Crc data cfg' ↔
      (cfg.dataId &&& 0xFF).toUInt8 = (cfg'.dataId &&& 0xFF).toUInt8 := by
  have hboth : ¬ DataIdMode.kNibble = .kBoth := by decide
  rw [computeP11Crc_eq, computeP11Crc_eq, hoffset, Profile11Config.dataIdBytes,
    Profile11Config.dataIdBytes, hmode, hmode', if_neg hboth, if_neg hboth, UInt8.xor_left_inj]
  constructor
  · exact crc8SaeJ1850_cons_inj
  · intro hlow
    rw [hlow]

/-! ## The checker -/

theorem Profile11Checker.check_error_iff {c : Profile11Checker} {data : List UInt8}
    (hcovers : Covers c.config.offset kP11HeaderLen data) :
    (∃ c', c.check data = .ok (.kError, c')) ↔
      byteAt data c.config.offset ≠ computeP11Crc data c.config := by
  have hclassify : ∀ delta maxDelta, classifyCounter delta maxDelta ≠ .kError := by
    intro delta maxDelta
    unfold classifyCounter
    split
    · simp
    · split <;> simp
  rw [check, if_neg hcovers.not_short]
  by_cases hcrc : byteAt data c.config.offset = computeP11Crc data c.config
  · rw [if_neg (not_not.2 hcrc)]
    refine iff_of_false ?_ (not_not.2 hcrc)
    rintro ⟨c', h⟩
    dsimp only at h
    split at h
    · cases h
    · exact hclassify _ _ (congrArg Prod.fst (Except.ok.inj h))
  · rw [if_pos hcrc]
    exact iff_of_true ⟨c, rfl⟩ hcrc

/-- **NIBBLE mode binds the low byte of the Data ID** and no more: a checker with the same offset finds a
protected PDU in error exactly when the low bytes of the two Data IDs differ. -/
theorem nibble_error_iff (p : Profile11Protector) (c : Profile11Checker) (data : List UInt8)
    (hmode : p.config.dataIdMode = .kNibble) (hmode' : c.config.dataIdMode = .kNibble)
    (hoffset : c.config.offset = p.config.offset)
    (hcovers : Covers p.config.offset kP11HeaderLen data) :
    ∃ out p', p.protect data = .ok (out, p') ∧
      ((∃ c', c.check out = .ok (.kError, c')) ↔
        p.config.dataId &&& 0xFF ≠ c.config.dataId &&& 0xFF) := by
  obtain ⟨out, hout, hsealed⟩ := Profile11Protector.protect_sealed hcovers
  refine ⟨out, _, hout, ?_⟩
  have hcovers' : Covers c.config.offset kP11HeaderLen out := hoffset ▸ hsealed.covers
  have hlow : ∀ a b : UInt16, (a &&& 0xFF).toUInt8 = (b &&& 0xFF).toUInt8 ↔
      a &&& 0xFF = b &&& 0xFF := by
    intro a b
    have hmask : ∀ x : UInt16, (x &&& 0xFF).toNat = x.toNat % 256 := by
      intro x
      rw [UInt16.toNat_and]
      exact Nat.and_two_pow_sub_one_eq_mod x.toNat 8
    rw [← UInt8.toNat_inj, lowByte_toNat, lowByte_toNat, ← UInt16.toNat_inj, hmask, hmask]
  rw [Profile11Checker.check_error_iff hcovers', hoffset, hsealed.crc, ne_eq, ne_eq,
    computeP11Crc_nibble_inj hmode hmode' hoffset, hlow]

/-- A Data ID that differs in its low byte is found out. -/
theorem nibble_error_lowByte :
    ∃ out p', Profile11Protector.protect ⟨⟨0x0123, .kNibble, 0, 1⟩, 0⟩ [0, 0, 0x55] = .ok (out, p') ∧
      ∃ c', Profile11Checker.check ⟨⟨0x0124, .kNibble, 0, 1⟩, 0, false⟩ out = .ok (.kError, c') := by
  obtain ⟨out, p', hout, herror⟩ := nibble_error_iff ⟨⟨0x0123, .kNibble, 0, 1⟩, 0⟩
    ⟨⟨0x0124, .kNibble, 0, 1⟩, 0, false⟩ [0, 0, 0x55] rfl rfl rfl ⟨by decide, by decide⟩
  exact ⟨out, p', hout, herror.mpr (by decide)⟩

/-- Data ID 0x0223 takes a PDU of Data ID 0x0123, although the nibble in the header is 1. -/
theorem nibble_not_compared :
    ¬ ∀ (p : Profile11Protector) (c : Profile11Checker) (data out : List UInt8)
      (p' : Profile11Protector),
      p.config.dataIdMode = .kNibble → c.config.dataIdMode = .kNibble →
      c.config.offset = p.config.offset →
      p.config.dataId &&& 0x0FFF ≠ c.config.dataId &&& 0x0FFF →
      p.protect data = .ok (out, p') → ∃ c', c.check out = .ok (.kError, c') := by
  intro h
  obtain ⟨c', hcheck⟩ := h ⟨⟨0x0123, .kNibble, 0, 1⟩, 0⟩ ⟨⟨0x0223, .kNibble, 0, 1⟩, 0, false⟩
    [0, 0, 0x55] _ _ rfl rfl rfl (by decide) rfl
  have hok : (Profile11Checker.check ⟨⟨0x0223, .kNibble, 0, 1⟩, 0, false⟩
      ([0, 0x11, 0x55].set 0 (computeP11Crc [0, 0x11, 0x55] ⟨0x0123, .kNibble, 0, 1⟩))).map Prod.fst =
      .ok .kOk := by decide +kernel
  exact CheckStatus.noConfusion (Except.ok.inj ((congrArg (Except.map Prod.fst) hcheck).symm.trans hok))

end Tc8Harness.Autosar
