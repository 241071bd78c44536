import Tc8Harness.Dut.LeaseSchedule

/-!
# Which leases are renewed in time

Where the product in T2 fits its 32 bits the timers of a lease of at least three seconds are spread, and
the client keeps the schedule. A longer lease wraps T2 to an earlier instant, and the client is REBINDING
before T2 (`onSchedule_iff`).
-/

namespace Tc8Harness.Dut

/-! ## The phase alone, whatever the timers -/

namespace PhaseState

theorem tick_timers (b : Binding) (s : PhaseState) (now : Int) : (s.tick b now).1.timers = s.timers := by
  simp only [tick, enterRenewing, enterRebinding, resendRenewing, resendRebinding]
  split_ifs <;> rfl

/-- Resending does not move the phase. -/
theorem tick_phase (b : Binding) (s : PhaseState) (now : Int) :
    (s.tick b now).1.phase = ((s.enterRenewing b now).1.enterRebinding b now).1.phase := by
  simp only [tick, resendRenewing, resendRebinding]
  split_ifs <;> rfl

/-- A turn before T1 or before T2 does not end REBINDING. -/
theorem tick_phase_early {b : Binding} {s : PhaseState} {now : Int}
    (hphase : s.phase = .Bound ∨ s.phase = .Renewing ∧ s.timers.t1 ≤ now)
    (hnow : now < s.timers.t1 ∨ now < s.timers.t2) :
    (s.tick b now).1.phase = .Bound ∨
      (s.tick b now).1.phase = .Renewing ∧ s.timers.t1 ≤ now := by
  rw [tick_phase]
  by_cases hdue : s.timers.t1 ≤ now
  · have hearly : ¬ now ≥ s.timers.t2 := by omega
    rcases hphase with hphase | ⟨hphase, -⟩ <;>
      simp [enterRenewing, enterRebinding, hphase, hdue, hearly]
  · rcases hphase with hphase | ⟨-, hdue'⟩
    · simp [enterRenewing, enterRebinding, hphase, hdue]
    · exact absurd hdue' hdue

/-- A turn from T1 and T2 on that does not start REBINDING sends a REBINDING REQUEST. -/
theorem mem_tick_rebinding {b : Binding} {s : PhaseState} {now : Int}
    (hphase : s.phase = .Bound ∨ s.phase = .Renewing) (h1 : s.timers.t1 ≤ now)
    (h2 : s.timers.t2 ≤ now) : rebindingRequest b ∈ (s.tick b now).2 := by
  have henter : ((s.enterRenewing b now).1.enterRebinding b now).2 = [rebindingRequest b] := by
    rcases hphase with hphase | hphase <;> simp [enterRenewing, enterRebinding, hphase, h1, h2]
  simp only [tick, henter]
  simp

end PhaseState

/-- T1 and T2 both past, the client is REBINDING, whichever of them came first. -/
theorem sendsAt_rebinding_early {b : Binding} {start : PhaseState} {base : Int} (clock : Clock base)
    (hbound : start.phase = .Bound) {n : ℕ}
    (hbefore : ∀ k < n, clock.read k < start.timers.t1 ∨ clock.read k < start.timers.t2)
    (halive : ∀ k < n, clock.read k < start.timers.leaseEnd) (h1 : start.timers.t1 ≤ clock.read n)
    (h2 : start.timers.t2 ≤ clock.read n) : SendsAt b start clock.read n .Rebinding := by
  have hstate : ∃ s, unanswered b start clock.read n = some s ∧ s.timers = start.timers ∧
      (s.phase = .Bound ∨ s.phase = .Renewing ∧ start.timers.t1 ≤ clock.read n) := by
    clear h1 h2
    induction n with
    | zero => exact ⟨start, rfl, rfl, .inl hbound⟩
    | succ n ih =>
      obtain ⟨s, hs, htimers, hphase⟩ := ih (fun k hk => hbefore k (Nat.lt_succ_of_lt hk))
        fun k hk => halive k (Nat.lt_succ_of_lt hk)
      have hkept := s.tick_timers b (clock.read n)
      refine ⟨_, unanswered_succ hs ?_, hkept.trans htimers, ?_⟩
      · rw [hkept, htimers]
        exact halive n (Nat.lt_succ_self n)
      · have hnow := hbefore n (Nat.lt_succ_self n)
        have hmono := clock.mono n
        rw [← htimers] at hphase hnow ⊢
        rcases PhaseState.tick_phase_early (b := b) hphase hnow with hb | ⟨hr, hdue⟩
        · exact .inl hb
        · exact .inr ⟨hr, by omega⟩
  obtain ⟨s, hs, htimers, hphase⟩ := hstate
  refine ⟨PhaseState.rebindingRequest b, ?_, rfl⟩
  rw [sentAt_of_state hs]
  rw [← htimers] at h1 h2
  exact PhaseState.mem_tick_rebinding (hphase.imp_right And.left) h1 h2

/-! ## The timers of a lease -/

section Lease

variable {b : Binding} (hflavor : b.behaviorFlavor = .None) (serverIdBe : UInt32)

theorem toNat_t2 (lease : UInt32) : (lease * 7 / 8).toNat = 7 * lease.toNat % 2 ^ 32 / 8 := by
  rw [UInt32.toNat_div, UInt32.toNat_mul, Nat.mul_comm]
  rfl

include hflavor

theorem armed_timers (lease : UInt32) (base : Int) :
    (b.armed serverIdBe lease base).timers =
      ⟨base + (lease.toNat / 2 : ℕ) * 1000000000,
        base + (7 * lease.toNat % 2 ^ 32 / 8 : ℕ) * 1000000000,
        base + lease.toNat * 1000000000⟩ := by
  have ht1 : (lease / 2).toNat = lease.toNat / 2 := UInt32.toNat_div lease 2
  simp only [Binding.armed, armPhaseTimers, hflavor, seconds, reduceCtorEq, if_false, toNat_t2, ht1]

theorem onSchedule_of_fits {lease : UInt32} {base : Int} (clock : Clock base)
    (hlease : 3 ≤ lease.toNat) (hfits : 7 * lease.toNat < 2 ^ 32) :
    OnSchedule b (b.armed serverIdBe lease base) clock.read base lease.toNat := by
  have htimers := armed_timers hflavor serverIdBe lease base
  rw [Nat.mod_eq_of_lt hfits] at htimers
  have hspread : Spread base (b.armed serverIdBe lease base).timers := by
    rw [htimers]
    exact ⟨by dsimp only; omega, by dsimp only [kMaxGap]; omega, by dsimp only [kMaxGap]; omega⟩
  have hrenewing := keepsWindow_of
    (fun _ h => sentInTurn_renewing clock hflavor hspread rfl h)
    (fun _ _ hmn hm h => due_renewing clock hflavor hspread rfl hmn hm h)
    (exists_sends_renewing clock hflavor hspread rfl)
  have hrebinding := keepsWindow_of
    (fun _ h => sentInTurn_rebinding clock hflavor hspread rfl h)
    (fun _ _ hmn hm h => due_rebinding clock hflavor hspread rfl hmn hm h)
    (exists_sends_rebinding clock hflavor hspread rfl)
  have hreturns := exists_returnsAt clock hflavor hspread rfl
  rw [htimers] at hrenewing hrebinding hreturns
  exact ⟨hrenewing, hrebinding, length_sentAt_le clock hflavor hspread rfl, hreturns⟩

/-- A product that wraps puts T2 so early that the client is REBINDING before it should. -/
theorem not_onSchedule_of_wraps {lease : UInt32} {base : Int} (clock : Clock base)
    (hwraps : 2 ^ 32 ≤ 7 * lease.toNat) :
    ¬ OnSchedule b (b.armed serverIdBe lease base) clock.read base lease.toNat := by
  intro h
  have htimers := armed_timers hflavor serverIdBe lease base
  have hlt : lease.toNat < 2 ^ 32 := lease.toNat_lt
  have hmod : 7 * lease.toNat % 2 ^ 32 + 2 ^ 32 ≤ 7 * lease.toNat := by omega
  -- T1 and the wrapped T2 are both past long before T2.
  obtain ⟨n, hreached, hfirst⟩ := clock.exists_first
    (max (b.armed serverIdBe lease base).timers.t1 (b.armed serverIdBe lease base).timers.t2)
  have hnear := clock.read_le_of_before (by rw [htimers]; dsimp only; omega) hfirst
  have hsends : SendsAt b (b.armed serverIdBe lease base) clock.read n .Rebinding := by
    refine sendsAt_rebinding_early clock rfl (fun k hk => ?_) (fun k hk => ?_) ?_ ?_
    · have hk' := hfirst k hk
      omega
    · have hk' := hfirst k hk
      rw [htimers] at hk' ⊢
      dsimp only at hk' ⊢
      omega
    · omega
    · omega
  have hwindow := (h.rebinding.inWindow n hsends).1
  rw [htimers] at hnear
  dsimp only [kMaxGap] at hnear
  omega

end Lease

/-- **The schedule of a lease is kept exactly when the product in T2 fits 32 bits.** -/
theorem onSchedule_iff (b : Binding) (hflavor : b.behaviorFlavor = .None) (serverIdBe lease : UInt32)
    (hlease : 3 ≤ lease.toNat) (base : Int) (clock : Clock base) :
    OnSchedule b (b.armed serverIdBe lease base) clock.read base lease.toNat ↔
      7 * lease.toNat < 2 ^ 32 := by
  constructor
  · intro h
    by_contra hnot
    exact not_onSchedule_of_wraps hflavor serverIdBe clock (Nat.le_of_not_lt hnot) h
  · exact onSchedule_of_fits hflavor serverIdBe clock hlease

/-- A clock read every 100 ms. -/
def steadyClock : Clock 0 where
  read n := n * kMaxGap
  start := by decide
  startGap := by decide
  mono n := by
    simp only [kMaxGap]
    omega
  gap n := by
    simp only [kMaxGap]
    omega
  unbounded t := ⟨t.toNat, by
    simp only [kMaxGap]
    omega⟩

/-- A lease of an hour. -/
theorem onSchedule_hour :
    OnSchedule ⟨.None, 1, 0x0700000A⟩ (Binding.armed ⟨.None, 1, 0x0700000A⟩ 0x0100000A 3600 0)
      steadyClock.read 0 3600 :=
  (onSchedule_iff ⟨.None, 1, 0x0700000A⟩ rfl 0x0100000A 3600 (by decide) 0 steadyClock).2 (by decide)

/-- A lease of 2^31 s, some 68 years. -/
theorem not_onSchedule_long :
    ¬ OnSchedule ⟨.None, 1, 0x0700000A⟩
      (Binding.armed ⟨.None, 1, 0x0700000A⟩ 0x0100000A 0x80000000 0) steadyClock.read 0 0x80000000 :=
  not_onSchedule_of_wraps rfl 0x0100000A steadyClock (by decide)

end Tc8Harness.Dut
