import Tc8Harness.Autosar.E2e

/-!
# Profile 5 error detection

What a Profile 5 checker makes of a protected PDU that the channel has damaged, or that was protected
under another Data ID. The CRC covers the bytes on both sides of its own field and then the Data ID as
one message, so a burst may lie across the field, and another Data ID is a burst at the end of the
message.
-/

namespace Tc8Harness.Autosar

/-! ## Damage -/

/-- Some of 16 consecutive bits of the covered bytes have changed, and nothing else. -/
structure CoveredBurst (cfg : Profile05Config) (data changed : List UInt8) : Prop where
  length_eq : changed.length = data.length
  field : ∀ i, i = cfg.offset.toNat ∨ i = cfg.offset.toNat + 1 → changed[i]? = data[i]?
  burst : Burst 16 (covered05 data cfg) (covered05 changed cfg)

/-- The two CRC bytes have changed, and nothing else. -/
structure CrcFieldChange (cfg : Profile05Config) (data changed : List UInt8) : Prop where
  length_eq : changed.length = data.length
  ne : changed ≠ data
  elsewhere : ∀ i, i ≠ cfg.offset.toNat → i ≠ cfg.offset.toNat + 1 → changed[i]? = data[i]?

theorem storedCrc_congr {cfg : Profile05Config} {data changed : List UInt8}
    (h : Covers cfg.offset kP05HeaderLen data)
    (hfield : ∀ i, i = cfg.offset.toNat ∨ i = cfg.offset.toNat + 1 → changed[i]? = data[i]?) :
    storedCrc changed cfg = storedCrc data cfg := by
  simp only [storedCrc, byteAt, List.getD_eq_getElem?_getD, h.p05CrcHigh, hfield _ (.inl rfl),
    hfield _ (.inr rfl)]

theorem CrcFieldChange.covered05_eq {cfg : Profile05Config} {data changed : List UInt8}
    (h : CrcFieldChange cfg data changed) (hcovers : Covers cfg.offset kP05HeaderLen data) :
    covered05 changed cfg = covered05 data cfg := by
  rw [covered05, covered05, hcovers.p05Counter]
  congr 1
  · apply List.ext_getElem?
    intro i
    rw [List.getElem?_take, List.getElem?_take]
    split
    · exact h.elsewhere i (by omega) (by omega)
    · rfl
  · apply List.ext_getElem?
    intro i
    rw [List.getElem?_drop, List.getElem?_drop]
    exact h.elsewhere _ (by omega) (by omega)

/-- The field holds its two bytes apart, so no other bytes store the same CRC. -/
theorem CrcFieldChange.storedCrc_ne {cfg : Profile05Config} {data changed : List UInt8}
    (h : CrcFieldChange cfg data changed) (hcovers : Covers cfg.offset kP05HeaderLen data) :
    storedCrc changed cfg ≠ storedCrc data cfg := by
  intro hstored
  have hheader : cfg.offset.toNat + 3 ≤ data.length := hcovers.header
  have hpos := hcovers.p05CrcHigh
  have hvalue := congrArg UInt16.toNat hstored
  rw [storedCrc, storedCrc, joinBytes, joinBytes] at hvalue
  have hlo := (byteAt changed cfg.offset).toNat_lt
  have hlo' := (byteAt data cfg.offset).toNat_lt
  have hlow : byteAt changed cfg.offset = byteAt data cfg.offset :=
    UInt8.toNat_inj.1 (by omega)
  have hhigh : byteAt changed (cfg.offset + 1) = byteAt data (cfg.offset + 1) :=
    UInt8.toNat_inj.1 (by omega)
  have hat : ∀ pos : UInt64, pos.toNat < data.length → byteAt changed pos = byteAt data pos →
      changed[pos.toNat]? = data[pos.toNat]? := by
    intro pos hlt heq
    rw [byteAt, byteAt, List.getD_eq_getElem _ _ (h.length_eq ▸ hlt),
      List.getD_eq_getElem _ _ hlt] at heq
    rw [List.getElem?_eq_getElem (h.length_eq ▸ hlt), List.getElem?_eq_getElem hlt, heq]
  apply h.ne
  apply List.ext_getElem?
  intro i
  by_cases hfirst : i = cfg.offset.toNat
  · subst hfirst
    exact hat cfg.offset (by omega) hlow
  · by_cases hsecond : i = cfg.offset.toNat + 1
    · rw [hsecond, ← hpos]
      exact hat (cfg.offset + 1) (by omega) hhigh
    · exact h.elsewhere i hfirst hsecond

/-! ## The checker -/

theorem Profile05Checker.check_of_crc_ne {c : Profile05Checker} {data : List UInt8}
    (hcovers : Covers c.config.offset kP05HeaderLen data)
    (hcrc : storedCrc data c.config ≠ computeCrc data c.config) :
    c.check data = .ok (.kError, c) := by
  rw [check, if_neg hcovers.not_short, if_pos hcrc]

section Sealed

variable {cfg : Profile05Config} {counter : UInt8} {data : List UInt8}
  (h : Sealed05 cfg counter data)

include h

theorem Sealed05.crc_ne_of_burst {changed : List UInt8} (hburst : CoveredBurst cfg data changed) :
    storedCrc changed cfg ≠ computeCrc changed cfg := by
  rw [storedCrc_congr h.covers hburst.field, h.crc]
  have hne := hburst.burst.crc16Ccitt_ne 0x0000 [] cfg.dataIdBytes
  rw [List.nil_append, List.nil_append] at hne
  exact hne

theorem Sealed05.crc_ne_of_field {changed : List UInt8} (hfield : CrcFieldChange cfg data changed) :
    storedCrc changed cfg ≠ computeCrc changed cfg := by
  rw [computeCrc, hfield.covered05_eq h.covers]
  intro hcrc
  exact hfield.storedCrc_ne h.covers (hcrc.trans h.crc.symm)

theorem Sealed05.crc_ne_of_dataId {dataId : UInt16} (hne : dataId ≠ cfg.dataId) :
    storedCrc data { cfg with dataId := dataId } ≠ computeCrc data { cfg with dataId := dataId } := by
  have hbytes : cfg.dataIdBytes ≠ { cfg with dataId := dataId }.dataIdBytes := by
    intro heq
    simp only [Profile05Config.dataIdBytes, List.cons.injEq] at heq
    apply hne
    rw [← joinBytes_lowByte_highByte cfg.dataId, ← joinBytes_lowByte_highByte dataId, heq.1, heq.2.1]
  have hcrc := (burst_of_length_two rfl rfl hbytes).crc16Ccitt_ne 0x0000 (covered05 data cfg) []
  rw [List.append_nil, List.append_nil] at hcrc
  intro hsame
  exact hcrc (h.crc.symm.trans hsame)

end Sealed

/-- **Profile 5 detects** a change within 16 consecutive covered bits, a change of the CRC field and
another Data ID: the verdict is kError, and the checker is as it was. -/
theorem corruption_detected (p : Profile05Protector) (data : List UInt8)
    (hcovers : Covers p.config.offset kP05HeaderLen data) :
    ∃ out p', p.protect data = .ok (out, p') ∧
      (∀ changed, CoveredBurst p.config out changed ∨ CrcFieldChange p.config out changed →
        ∀ c : Profile05Checker, c.config = p.config → c.check changed = .ok (.kError, c)) ∧
      ∀ dataId, dataId ≠ p.config.dataId →
        ∀ c : Profile05Checker, c.config = { p.config with dataId := dataId } →
          c.check out = .ok (.kError, c) := by
  obtain ⟨out, hout, hsealed⟩ := Profile05Protector.protect_sealed hcovers
  refine ⟨out, _, hout, ?_, ?_⟩
  · rintro changed (hburst | hfield) c hconfig
    · apply Profile05Checker.check_of_crc_ne
      · rw [hconfig]
        exact hsealed.covers.of_length_eq hburst.length_eq
      · rw [hconfig]
        exact hsealed.crc_ne_of_burst hburst
    · apply Profile05Checker.check_of_crc_ne
      · rw [hconfig]
        exact hsealed.covers.of_length_eq hfield.length_eq
      · rw [hconfig]
        exact hsealed.crc_ne_of_field hfield
  · intro dataId hne c hconfig
    apply Profile05Checker.check_of_crc_ne
    · rw [hconfig]
      exact hsealed.covers
    · rw [hconfig]
      exact hsealed.crc_ne_of_dataId hne

/-- A flip on both sides of the CRC field, a flip in it, and another Data ID. -/
theorem corruption_detected_across_field :
    let cfg : Profile05Config := ⟨0x1234, 1, 1⟩
    let c : Profile05Checker := ⟨cfg, 3, true⟩
    ∃ p', Profile05Protector.protect ⟨cfg, 7⟩ [1, 2, 3, 4, 5] = .ok ([1, 0x4C, 0x2E, 8, 5], p') ∧
      c.check [0, 0x4C, 0x2E, 0x88, 5] = .ok (.kError, c) ∧
      c.check [1, 0x4D, 0x2E, 8, 5] = .ok (.kError, c) ∧
      Profile05Checker.check ⟨⟨0x1235, 1, 1⟩, 3, true⟩ [1, 0x4C, 0x2E, 8, 5] =
        .ok (.kError, ⟨⟨0x1235, 1, 1⟩, 3, true⟩) := by
  intro cfg c
  obtain ⟨out, p', hout, hdamage, hdataId⟩ := corruption_detected ⟨cfg, 7⟩ [1, 2, 3, 4, 5]
    ⟨by decide, by decide⟩
  have hbytes : (Profile05Protector.protect ⟨cfg, 7⟩ [1, 2, 3, 4, 5]).map Prod.fst =
      .ok [1, 0x4C, 0x2E, 8, 5] := by decide +kernel
  rw [hout] at hbytes
  obtain rfl : out = [1, 0x4C, 0x2E, 8, 5] := Except.ok.inj hbytes
  have hburst : CoveredBurst cfg [1, 0x4C, 0x2E, 8, 5] [0, 0x4C, 0x2E, 0x88, 5] := by
    refine ⟨rfl, by rintro i (rfl | rfl) <;> rfl, rfl, by decide, 7, fun i hdiff => ?_⟩
    have hall : ∀ i < 24, (bytesBits [1, 8, 5])[i]? ≠ (bytesBits [0, 0x88, 5])[i]? →
        7 ≤ i ∧ i < 7 + 16 := by decide +kernel
    refine hall i ?_ hdiff
    by_contra hge
    exact hdiff ((getElem?_bytesBits_none (Nat.le_of_not_lt hge)).trans
      (getElem?_bytesBits_none (Nat.le_of_not_lt hge)).symm)
  have hfield : CrcFieldChange cfg [1, 0x4C, 0x2E, 8, 5] [1, 0x4D, 0x2E, 8, 5] := by
    refine ⟨rfl, by decide, fun i hfirst _ => ?_⟩
    cases i with
    | zero => rfl
    | succ i =>
      cases i with
      | zero => exact absurd rfl hfirst
      | succ i => rfl
  exact ⟨p', hout, hdamage _ (.inl hburst) c rfl, hdamage _ (.inr hfield) c rfl,
    hdataId 0x1235 (by decide) _ rfl⟩

end Tc8Harness.Autosar
