import Tc8Harness.Autosar.E2e
import Tc8Harness.Lib.Sequencing

/-!
# E2E over a lossy channel

A protector numbers its PDUs by its counter, and a checker judges a PDU by how far its counter is from
the last one. Over any of the protected PDUs, delivered in order, the checker of either profile gives
the verdicts that the numbers of `protect` calls in between give, taken modulo the profile's counter
(`lossy_channel`).
-/

namespace Tc8Harness.Autosar

open Sequencing

/-- The verdict on a PDU protected `gap` calls after the last delivered one. -/
def gapStatus (modulus : Nat) (maxDelta : UInt8) (gap : Nat) : CheckStatus :=
  if gap % modulus = 0 then .kRepeated
  else if gap % modulus ≤ maxDelta.toNat then .kOk
  else .kWrongSequence

theorem classifyCounter_eq_gapStatus {delta maxDelta : UInt8} {modulus gap : Nat}
    (h : delta.toNat = gap % modulus) :
    classifyCounter delta maxDelta = gapStatus modulus maxDelta gap := by
  have hzero : delta = 0 ↔ gap % modulus = 0 := by
    rw [← h, ← UInt8.toNat_inj]
    rfl
  have hle : delta ≤ maxDelta ↔ gap % modulus ≤ maxDelta.toNat := by
    rw [← h, UInt8.le_iff_toNat_le]
  rw [classifyCounter, gapStatus]
  simp only [hzero, hle]

/-! ## Any profile -/

section Profile

variable {Config : Type}

/-- What the two profiles have in common: `protect` seals PDU `n`, from 0, with `counter (n + 1)`, and
`check` judges sealed PDUs by the distance between their numbers. -/
structure Numbered (config : Config)
    (protect : Protector Config → List UInt8 → Except String (List UInt8 × Protector Config))
    (check : Checker Config → List UInt8 → Except String (CheckStatus × Checker Config))
    (Fits : List UInt8 → Prop) (Sealed : UInt8 → List UInt8 → Prop) (counter : Nat → UInt8)
    (judge : Nat → CheckStatus) : Prop where
  start : counter 0 = 0
  protects : ∀ n pdu, Fits pdu → ∃ out,
    protect ⟨config, counter n⟩ pdu = .ok (out, ⟨config, counter (n + 1)⟩) ∧
      Sealed (counter (n + 1)) out
  first : ∀ n pdu, Sealed n pdu → check ⟨config, 0, false⟩ pdu = .ok (.kOk, ⟨config, n, true⟩)
  later : ∀ i j pdu, i ≤ j → Sealed (counter (j + 1)) pdu →
    check ⟨config, counter (i + 1), true⟩ pdu =
      .ok (judge (j - i), ⟨config, counter (j + 1), true⟩)

variable {config : Config}
  {protect : Protector Config → List UInt8 → Except String (List UInt8 × Protector Config)}
  {check : Checker Config → List UInt8 → Except String (CheckStatus × Checker Config)}
  {Fits : List UInt8 → Prop} {Sealed : UInt8 → List UInt8 → Prop} {counter : Nat → UInt8}
  {judge : Nat → CheckStatus}

theorem Numbered.protectAll (h : Numbered config protect check Fits Sealed counter judge)
    {pdus : List (List UInt8)} (hpdus : ∀ pdu ∈ pdus, Fits pdu) :
    ∃ out, runAll protect ⟨config, 0⟩ pdus = .ok out ∧ out.length = pdus.length ∧
      ∀ i < pdus.length, Sealed (counter (i + 1)) (out.getD i []) := by
  have hstep : ∀ n p pdu, p = Protector.mk config (counter n) → Fits pdu → ∃ out p',
      protect p pdu = .ok (out, p') ∧ p' = ⟨config, counter (n + 1)⟩ ∧
        Sealed (counter (n + 1)) out := by
    rintro n _ pdu rfl hfits
    obtain ⟨out, hout, hsealed⟩ := h.protects n pdu hfits
    exact ⟨out, _, hout, rfl, hsealed⟩
  have hinit : Protector.mk config 0 = Protector.mk config (counter 0) := by rw [h.start]
  obtain ⟨out, hrun, hlength, hsealed⟩ := runAll_outputs
    (fun n p => p = Protector.mk config (counter n)) Fits (fun n => Sealed (counter (n + 1))) hstep
    hinit hpdus
  refine ⟨out, hrun, hlength, ?_⟩
  intro i hi
  rw [← hlength] at hi
  have hout := hsealed i (out.getD i []) (by
    rw [List.getD_eq_getElem _ _ hi, List.getElem?_eq_getElem hi])
  rw [Nat.zero_add] at hout
  exact hout

theorem Numbered.checkAll (h : Numbered config protect check Fits Sealed counter judge)
    {out : List (List UInt8)} {n : Nat}
    (hsealed : ∀ i < n, Sealed (counter (i + 1)) (out.getD i [])) {positions : List Nat}
    (hsent : ∀ i ∈ positions, i < n) (hsorted : positions.Pairwise (· ≤ ·)) :
    runAll check ⟨config, 0, false⟩ (positions.map (out.getD · [])) =
      .ok (verdicts .kOk judge positions) := by
  have hlater : ∀ i j c, c = Checker.mk config (counter (i + 1)) true → j < n → i ≤ j → ∃ c',
      check c (out.getD j []) = .ok (judge (j - i), c') ∧
        c' = Checker.mk config (counter (j + 1)) true := by
    rintro i j _ rfl hj hle
    exact ⟨_, h.later i j _ hle (hsealed j hj), rfl⟩
  have hfresh : ∀ i, i < n → ∃ c',
      check ⟨config, 0, false⟩ (out.getD i []) = .ok (.kOk, c') ∧
        c' = Checker.mk config (counter (i + 1)) true :=
    fun i hi => ⟨_, h.first _ _ (hsealed i hi), rfl⟩
  exact runAll_eq_verdicts hlater hfresh hsent hsorted

end Profile

/-! ## The two profiles -/

theorem numbered05 (cfg : Profile05Config) :
    Numbered cfg Profile05Protector.protect Profile05Checker.check
      (Covers cfg.offset kP05HeaderLen) (Sealed05 cfg) UInt8.ofNat
      (gapStatus 256 cfg.maxDeltaCounter) where
  start := rfl
  protects n pdu hfits := by
    have hnext : UInt8.ofNat n + 1 = UInt8.ofNat (n + 1) := by
      apply UInt8.toNat_inj.1
      rw [UInt8.toNat_add, UInt8.toNat_ofNat', UInt8.toNat_ofNat']
      change (n % 256 + 1) % 256 = (n + 1) % 256
      omega
    obtain ⟨out, hout, hsealed⟩ :=
      Profile05Protector.protect_sealed (p := ⟨cfg, UInt8.ofNat n⟩) hfits
    simp only [hnext] at hout hsealed
    exact ⟨out, hout, hsealed⟩
  first n pdu hsealed := Profile05Checker.check_of_sealed (c := ⟨cfg, 0, false⟩) hsealed
  later i j pdu hle hsealed := by
    have hdelta : (UInt8.ofNat (j + 1) - UInt8.ofNat (i + 1)).toNat = (j - i) % 256 := by
      rw [UInt8.toNat_sub, UInt8.toNat_ofNat', UInt8.toNat_ofNat']
      omega
    rw [← classifyCounter_eq_gapStatus hdelta]
    exact Profile05Checker.check_of_sealed (c := ⟨cfg, UInt8.ofNat (i + 1), true⟩) hsealed

theorem numbered11 (cfg : Profile11Config) :
    Numbered cfg Profile11Protector.protect Profile11Checker.check
      (Covers cfg.offset kP11HeaderLen) (Sealed11 cfg)
      (fun n => UInt8.ofNat (n % kP11CounterModulus)) (gapStatus 15 cfg.maxDeltaCounter) where
  start := rfl
  protects n pdu hfits := by
    have hnext : ((UInt8.ofNat (n % kP11CounterModulus)).toNat + 1) % kP11CounterModulus =
        (n + 1) % kP11CounterModulus := by
      rw [UInt8.toNat_ofNat', kP11CounterModulus]
      omega
    obtain ⟨out, hout, hsealed⟩ := Profile11Protector.protect_sealed
      (p := ⟨cfg, UInt8.ofNat (n % kP11CounterModulus)⟩) hfits
    simp only [hnext] at hout hsealed
    exact ⟨out, hout, hsealed⟩
  first n pdu hsealed := Profile11Checker.check_of_sealed (c := ⟨cfg, 0, false⟩) hsealed
  later i j pdu hle hsealed := by
    have hdelta : (UInt8.ofNat (((UInt8.ofNat ((j + 1) % kP11CounterModulus)).toNat +
        kP11CounterModulus - (UInt8.ofNat ((i + 1) % kP11CounterModulus)).toNat) %
          kP11CounterModulus)).toNat = (j - i) % 15 := by
      rw [UInt8.toNat_ofNat', UInt8.toNat_ofNat', UInt8.toNat_ofNat', kP11CounterModulus]
      omega
    rw [← classifyCounter_eq_gapStatus hdelta]
    exact Profile11Checker.check_of_sealed
      (c := ⟨cfg, UInt8.ofNat ((i + 1) % kP11CounterModulus), true⟩) hsealed

/-- **E2E over a lossy channel.** Of the protected PDUs the channel delivers some in order, possibly
more than once. The first is kOk, and each later one is judged by the number of `protect` calls since
the one before it, modulo 256 in Profile 5 and modulo 15 in Profile 11. -/
theorem lossy_channel :
    (∀ (cfg : Profile05Config) (pdus : List (List UInt8)) (positions : List Nat),
      (∀ pdu ∈ pdus, Covers cfg.offset kP05HeaderLen pdu) →
      (∀ i ∈ positions, i < pdus.length) → positions.Pairwise (· ≤ ·) →
      ∃ out, runAll Profile05Protector.protect { config := cfg } pdus = .ok out ∧
        out.length = pdus.length ∧
        runAll Profile05Checker.check { config := cfg } (positions.map (out.getD · [])) =
          .ok (verdicts .kOk (gapStatus 256 cfg.maxDeltaCounter) positions)) ∧
    (∀ (cfg : Profile11Config) (pdus : List (List UInt8)) (positions : List Nat),
      (∀ pdu ∈ pdus, Covers cfg.offset kP11HeaderLen pdu) →
      (∀ i ∈ positions, i < pdus.length) → positions.Pairwise (· ≤ ·) →
      ∃ out, runAll Profile11Protector.protect { config := cfg } pdus = .ok out ∧
        out.length = pdus.length ∧
        runAll Profile11Checker.check { config := cfg } (positions.map (out.getD · [])) =
          .ok (verdicts .kOk (gapStatus 15 cfg.maxDeltaCounter) positions)) := by
  refine ⟨?_, ?_⟩
  · intro cfg pdus positions hpdus hsent hsorted
    obtain ⟨out, hrun, hlength, hsealed⟩ := (numbered05 cfg).protectAll hpdus
    exact ⟨out, hrun, hlength, (numbered05 cfg).checkAll hsealed hsent hsorted⟩
  · intro cfg pdus positions hpdus hsent hsorted
    obtain ⟨out, hrun, hlength, hsealed⟩ := (numbered11 cfg).protectAll hpdus
    exact ⟨out, hrun, hlength, (numbered11 cfg).checkAll hsealed hsent hsorted⟩

theorem lossy_channel_repeats_and_gaps :
    (∃ out, runAll Profile05Protector.protect { config := ⟨0x1234, 1, 1⟩ }
        (List.replicate 4 [1, 2, 3, 4, 5]) = .ok out ∧
      runAll Profile05Checker.check { config := ⟨0x1234, 1, 1⟩ }
        ([0, 0, 1, 3].map (out.getD · [])) = .ok [.kOk, .kRepeated, .kOk, .kWrongSequence]) ∧
    ∃ out, runAll Profile11Protector.protect { config := ⟨0x123, .kNibble, 0, 1⟩ }
        (List.replicate 17 [0, 0xF0, 7]) = .ok out ∧
      runAll Profile11Checker.check { config := ⟨0x123, .kNibble, 0, 1⟩ }
        ([0, 15, 16].map (out.getD · [])) = .ok [.kOk, .kRepeated, .kOk] := by
  refine ⟨?_, ?_⟩
  · obtain ⟨out, hrun, -, hchecks⟩ := lossy_channel.1 ⟨0x1234, 1, 1⟩ (List.replicate 4 [1, 2, 3, 4, 5])
      [0, 0, 1, 3] (fun pdu hpdu => by rw [List.eq_of_mem_replicate hpdu]; exact ⟨by decide, by decide⟩)
      (by decide) (by decide)
    exact ⟨out, hrun, hchecks⟩
  · obtain ⟨out, hrun, -, hchecks⟩ := lossy_channel.2 ⟨0x123, .kNibble, 0, 1⟩
      (List.replicate 17 [0, 0xF0, 7]) [0, 15, 16]
      (fun pdu hpdu => by rw [List.eq_of_mem_replicate hpdu]; exact ⟨by decide, by decide⟩)
      (by decide) (by decide)
    exact ⟨out, hrun, hchecks⟩

end Tc8Harness.Autosar
