import Mathlib.Tactic.Linarith
import Tc8Harness.Dut.Dhcpv4Reply

/-!
# The DISCOVER backoff

The waits of `runLoop` of `dut/dut_service/dhcpv4_client.cpp` between DISCOVERs that no OFFER answers.
The counts are milliseconds in 64-bit signed integers; an operation whose result does not fit, or a
shift by the width or more, has no value in C++ and none here. The shift and the product are taken
before the cap, so a late attempt has no wait at all (`backoff_wait_iff`).
-/

namespace Tc8Harness.Dut

/-- The result of a 64-bit signed operation. -/
def int64 (x : Int) : Option Int := if -2 ^ 63 ≤ x ∧ x < 2 ^ 63 then some x else none

/-- `1LL << n`. The bit of a shift by 63 is the sign. -/
def shiftedOne (n : Nat) : Option Int :=
  if n < 63 then some (2 ^ n) else if n = 63 then some (-2 ^ 63) else none

/-- The waits `OpStartDhcpClient` sets for the attempts. -/
structure RetxParams where
  offerWaitMs : Int := 2000
  retryCount : UInt8 := 1
  retryIntervalMs : Int := 1000
  retxFirstMs : Int := 0
  retxCapMs : Int := 0
  retxJitterMs : Int := 0
  behaviorFlavor : Dhcpv4BehaviorFlavor := .None
  deriving DecidableEq, Repr

namespace RetxParams

variable (p : RetxParams)

def expBackoffMode : Bool := 0 < p.retxFirstMs

def baseMs (attempt : UInt8) : Option Int := do
  let factor ← shiftedOne attempt.toNat
  let doubled ← int64 (p.retxFirstMs * factor)
  return min p.retxCapMs doubled

/-- The jitter: nothing is drawn without one. -/
def jitterMs (draw : Int) : Int := if 0 < p.retxJitterMs then draw else 0

/-- `wait_for_offer` of an attempt. The two mutants replace what was computed. -/
def waitForOffer (attempt : UInt8) (draw : Int) : Option Int := do
  let computed ←
    if p.expBackoffMode then do
      let baseMs ← p.baseMs attempt
      let sum ← int64 (baseMs + p.jitterMs draw)
      pure (max 0 sum)
    else pure p.offerWaitMs
  let wait := if p.behaviorFlavor = .RetxNoBackoff then 0 else computed
  if p.behaviorFlavor = .RetxExceedCap then int64 (p.retxCapMs * 2) else return wait

/-- What is slept once the attempt is given up: in backoff mode the poll has been the wait. -/
def sleepAfter (attempt : UInt8) : Int :=
  if p.expBackoffMode = false ∧ attempt + 1 < p.retryCount then p.retryIntervalMs else 0

/-- The loop over the attempts while no OFFER comes: the time from each DISCOVER to the next. -/
def unanswered (draws : Nat → Int) : Nat → UInt8 → List (Option Int)
  | 0, _ => []
  | fuel + 1, attempt =>
    if attempt < p.retryCount then
      (p.waitForOffer attempt (draws attempt.toNat)).map (· + p.sleepAfter attempt) ::
        unanswered draws fuel (attempt + 1)
    else []

/-- The waits of a run without OFFERs. The count of the attempts is a byte, so 255 turns are enough. -/
def waits (draws : Nat → Int) : List (Option Int) := p.unanswered draws 255 0

variable {p}

/-- The loop makes the attempts one after the other. -/
theorem unanswered_getElem? (draws : Nat → Int) (fuel : Nat) (attempt : UInt8)
    (hfuel : p.retryCount.toNat ≤ attempt.toNat + fuel) (n : Nat)
    (hn : attempt.toNat + n < p.retryCount.toNat) :
    (p.unanswered draws fuel attempt)[n]? =
      some ((p.waitForOffer (UInt8.ofNat (attempt.toNat + n)) (draws (attempt.toNat + n))).map
        (· + p.sleepAfter (UInt8.ofNat (attempt.toNat + n)))) := by
  induction fuel generalizing attempt n with
  | zero => omega
  | succ fuel ih =>
    have hlt : attempt < p.retryCount := UInt8.lt_iff_toNat_lt.mpr (by omega)
    rw [unanswered, if_pos hlt]
    cases n with
    | zero => simp
    | succ n =>
      have hcount := p.retryCount.toNat_lt
      have hnext : (attempt + 1).toNat = attempt.toNat + 1 := by
        rw [UInt8.toNat_add]
        exact Nat.mod_eq_of_lt (by simp; omega)
      rw [List.getElem?_cons_succ, ih (attempt + 1) (by omega) n (by omega), hnext]
      simp only [Nat.add_assoc, Nat.add_comm 1 n]

theorem waits_getElem? (draws : Nat → Int) {n : Nat} (hn : n < p.retryCount.toNat) :
    (p.waits draws)[n]? =
      some ((p.waitForOffer (UInt8.ofNat n) (draws n)).map (· + p.sleepAfter (UInt8.ofNat n))) := by
  have hcount := p.retryCount.toNat_lt
  have h := unanswered_getElem? (p := p) draws 255 0 (by simp; omega) n (by simpa using hn)
  rw [waits]
  simpa using h

/-! ## One attempt -/

/-- Parameters in backoff mode, as the conformant client has them. -/
structure Conformant (p : RetxParams) : Prop where
  first : 0 < p.retxFirstMs
  cap : 0 ≤ p.retxCapMs ∧ p.retxCapMs < 2 ^ 32
  jitter : 0 ≤ p.retxJitterMs ∧ p.retxJitterMs < 2 ^ 32
  backsOff : p.behaviorFlavor ≠ .RetxNoBackoff
  capped : p.behaviorFlavor ≠ .RetxExceedCap

theorem Conformant.waits_getElem? (hp : Conformant p) (draws : Nat → Int) {n : Nat}
    (hn : n < p.retryCount.toNat) :
    (p.waits draws)[n]? = some ((p.baseMs (UInt8.ofNat n)).bind fun baseMs =>
      (int64 (baseMs + p.jitterMs (draws n))).map (max 0)) := by
  have hmode : p.expBackoffMode = true := decide_eq_true hp.first
  have hsleep : p.sleepAfter (UInt8.ofNat n) = 0 := if_neg (by simp [hmode])
  rw [RetxParams.waits_getElem? draws hn, hsleep]
  simp only [waitForOffer, hmode, if_true, if_neg hp.backsOff, if_neg hp.capped]
  cases p.baseMs (UInt8.ofNat n) with
  | none => rfl
  | some baseMs =>
    cases hsum : int64 (baseMs + p.jitterMs (draws n)) with
    | none => simp [hsum]
    | some sum => simp [hsum]

theorem toNat_attempt {n : Nat} (hn : n < p.retryCount.toNat) : (UInt8.ofNat n).toNat = n := by
  have hcount := p.retryCount.toNat_lt
  rw [UInt8.toNat_ofNat']
  exact Nat.mod_eq_of_lt (by omega)

/-- The doubling fits: the base is what the schedule says. -/
theorem baseMs_of_fits {n : Nat} (hfirst : 0 < p.retxFirstMs) (hn : n < p.retryCount.toNat)
    (hfits : p.retxFirstMs * 2 ^ n < 2 ^ 63) :
    p.baseMs (UInt8.ofNat n) = some (min p.retxCapMs (p.retxFirstMs * 2 ^ n)) := by
  have hpow : (0 : Int) < 2 ^ n := by positivity
  have hlow : n < 63 := by
    by_contra hge
    have hmono : (2 : Int) ^ 63 ≤ 2 ^ n := pow_le_pow_right₀ (by decide) (by omega)
    have hgrow : (2 : Int) ^ n ≤ p.retxFirstMs * 2 ^ n := le_mul_of_one_le_left hpow.le hfirst
    omega
  have hpos : 0 < p.retxFirstMs * 2 ^ n := mul_pos hfirst hpow
  have hint : int64 (p.retxFirstMs * 2 ^ n) = some (p.retxFirstMs * 2 ^ n) :=
    if_pos ⟨by omega, hfits⟩
  rw [baseMs, toNat_attempt hn, shiftedOne, if_pos hlow]
  simp [hint]

/-- It does not: there is no base, but for the one shift whose only bit is the sign. -/
theorem baseMs_of_not_fits {n : Nat} (hfirst : 0 < p.retxFirstMs) (hn : n < p.retryCount.toNat)
    (hfits : ¬ p.retxFirstMs * 2 ^ n < 2 ^ 63) :
    p.baseMs (UInt8.ofNat n) =
      if n = 63 ∧ p.retxFirstMs = 1 then some (min p.retxCapMs (-2 ^ 63)) else none := by
  rw [baseMs, toNat_attempt hn, shiftedOne]
  by_cases hlow : n < 63
  · have hint : int64 (p.retxFirstMs * 2 ^ n) = none := if_neg fun h => hfits h.2
    rw [if_pos hlow, if_neg (by omega)]
    simp [hint]
  by_cases hsign : n = 63
  · rw [if_neg hlow, if_pos hsign]
    by_cases hone : p.retxFirstMs = 1
    · rw [if_pos ⟨hsign, hone⟩, hone]
      rfl
    · have hint : int64 (p.retxFirstMs * -2 ^ 63) = none := if_neg fun h => by omega
      rw [if_neg (fun h => hone h.2)]
      simp only [hint, Option.bind_eq_bind, Option.bind_some, Option.bind_none]
  · rw [if_neg hlow, if_neg hsign, if_neg (fun h => hsign h.1)]
    rfl

theorem Conformant.jitterMs_of_le (hp : Conformant p) {draw : Int} (h : |draw| ≤ p.retxJitterMs) :
    p.jitterMs draw = draw := by
  have hj := hp.jitter.1
  rw [jitterMs]
  split
  · rfl
  · have hzero : p.retxJitterMs = 0 := by omega
    rw [hzero] at h
    exact (abs_nonpos_iff.mp h).symm

/-- **The wait of an attempt is the scheduled one exactly while the doubling fits 64 bits.** For every
first wait, cap and jitter, every number of attempts and every attempt of it, whatever is drawn: the
N-th wait without an OFFER is `min cap (first * 2^N)` with a jitter, and not below 0, if and only if
`first * 2^N` is below `2^63`; where it is not, the one case left is a first wait of 1 at attempt 63
with nothing to wait for. -/
theorem backoff_wait_iff (hp : Conformant p) {n : Nat} (hn : n < p.retryCount.toNat) :
    (∀ draws : Nat → Int, (∀ k, |draws k| ≤ p.retxJitterMs) →
      ∃ j, |j| ≤ p.retxJitterMs ∧
        (p.waits draws)[n]? = some (some (max 0 (min p.retxCapMs (p.retxFirstMs * 2 ^ n) + j)))) ↔
      p.retxFirstMs * 2 ^ n < 2 ^ 63 ∨
        (n = 63 ∧ p.retxFirstMs = 1 ∧ p.retxCapMs = 0 ∧ p.retxJitterMs = 0) := by
  obtain ⟨hcap, hcapLt⟩ := hp.cap
  obtain ⟨hjitter, hjitterLt⟩ := hp.jitter
  by_cases hfits : p.retxFirstMs * 2 ^ n < 2 ^ 63
  · refine iff_of_true (fun draws hdraws => ⟨draws n, hdraws n, ?_⟩) (.inl hfits)
    have hpos : 0 < p.retxFirstMs * 2 ^ n := mul_pos hp.first (by positivity)
    have hdraw := abs_le.mp (hdraws n)
    have hint : int64 (min p.retxCapMs (p.retxFirstMs * 2 ^ n) + draws n) =
        some (min p.retxCapMs (p.retxFirstMs * 2 ^ n) + draws n) := if_pos (by omega)
    rw [hp.waits_getElem? draws hn, baseMs_of_fits hp.first hn hfits, Option.bind_some,
      hp.jitterMs_of_le (hdraws n), hint]
    rfl
  · have hbase := baseMs_of_not_fits hp.first hn hfits
    have hlow : min p.retxCapMs (-2 ^ 63) = -2 ^ 63 := by omega
    rw [hlow] at hbase
    constructor
    · intro hall
      -- the least jitter takes the sum out of the range, unless there is none
      have hleast : |(-p.retxJitterMs)| ≤ p.retxJitterMs := by rw [abs_neg, abs_of_nonneg hjitter]
      obtain ⟨j, hj, hwait⟩ := hall (fun _ => -p.retxJitterMs) fun _ => hleast
      rw [hp.waits_getElem? _ hn, hbase, hp.jitterMs_of_le hleast] at hwait
      by_cases hsign : n = 63 ∧ p.retxFirstMs = 1
      swap
      · rw [if_neg hsign] at hwait
        nomatch Option.some.inj hwait
      rw [if_pos hsign, Option.bind_some] at hwait
      by_cases hnojitter : p.retxJitterMs = 0
      swap
      · have hnone : int64 (-2 ^ 63 + -p.retxJitterMs) = none := if_neg (by omega)
        rw [hnone] at hwait
        nomatch Option.some.inj hwait
      have hint : int64 (-2 ^ 63 + -p.retxJitterMs) = some (-2 ^ 63 + -p.retxJitterMs) :=
        if_pos (by omega)
      rw [hnojitter, abs_nonpos_iff] at hj
      rw [hint, hj] at hwait
      have hsame : max 0 (-2 ^ 63 + -p.retxJitterMs) =
          max 0 (min p.retxCapMs (p.retxFirstMs * 2 ^ n) + 0) :=
        Option.some.inj (Option.some.inj hwait)
      exact .inr ⟨hsign.1, hsign.2, by omega, hnojitter⟩
    · rintro (hlt | ⟨hsign, hone, hnocap, hnojitter⟩)
      · exact absurd hlt hfits
      · intro draws hdraws
        have hdraw : draws n = 0 := by
          have hle := hdraws n
          rwa [hnojitter, abs_nonpos_iff] at hle
        have hnone : p.jitterMs (draws n) = 0 := (hp.jitterMs_of_le (hdraws n)).trans hdraw
        refine ⟨0, by simpa using hjitter, ?_⟩
        rw [hp.waits_getElem? draws hn, hbase, if_pos ⟨hsign, hone⟩, Option.bind_some, hnone, hsign,
          hone, hnocap]
        rfl

/-- The first waits of the conformance envelope: 4 s, capped at 64 s, give or take 1 s. -/
def envelope : RetxParams :=
  { retryCount := 255, retxFirstMs := 4000, retxCapMs := 64000, retxJitterMs := 1000 }

theorem envelope_conformant : Conformant envelope := by
  constructor <;> decide

theorem backoff_wait_iff_envelope :
    4 < envelope.retryCount.toNat ∧
    ∀ draws : Nat → Int, (∀ k, |draws k| ≤ envelope.retxJitterMs) →
      ∃ j, |j| ≤ envelope.retxJitterMs ∧
        (envelope.waits draws)[4]? =
          some (some (max 0 (min envelope.retxCapMs (envelope.retxFirstMs * 2 ^ 4) + j))) :=
  ⟨by decide, (backoff_wait_iff envelope_conformant (by decide)).mpr (.inl (by decide))⟩

/-- **Attempt 52 has no wait.** `4000 * 2^52` does not fit, and the cap comes too late. -/
theorem not_backoff_wait_late :
    (envelope.waits fun _ => 0)[52]? = some none ∧
    ¬ ∃ j, |j| ≤ envelope.retxJitterMs ∧ (envelope.waits fun _ => 0)[52]? =
      some (some (max 0 (min envelope.retxCapMs (envelope.retxFirstMs * 2 ^ 52) + j))) := by
  have hnone : (envelope.waits fun _ => 0)[52]? = some none := by decide +kernel
  refine ⟨hnone, ?_⟩
  rintro ⟨j, -, hwait⟩
  nomatch Option.some.inj (hnone.symm.trans hwait)

end RetxParams

end Tc8Harness.Dut
