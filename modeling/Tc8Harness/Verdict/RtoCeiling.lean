import Mathlib

/-!
# Watching the retransmission timeout

`observeRtoCeiling` of `tcp_rto_ceiling.h`. The loop polls a retransmitting DUT socket until its RTO
stops doubling, passes the grading bound, or the budget runs out. `rto_ceiling_sound` says of a sender
that backs off as RFC 6298 has it up to a cap inside the bound (`BacksOff`) that the bound is never
reported exceeded, and that a reported ceiling is the cap.

The clock and the probe are the environment: a `Poll` is what one pass of the loop sees of them.
-/

namespace Tc8Harness.Sce.Tcp

structure DutTcpInfo where
  state : UInt8 := 0
  rtoUs : UInt32 := 0
  retransmits : UInt8 := 0
  unacked : UInt32 := 0
  deriving DecidableEq, Repr

inductive RtoCeilingOutcome where
  | notObserved
  | ceilingReached
  | upperBoundExceeded
  | socketLost
  | budgetExhausted
  deriving DecidableEq, Repr

structure RtoCeilingObservation where
  outcome : RtoCeilingOutcome := .notObserved
  valid : Bool := false
  last : DutTcpInfo := {}
  deriving DecidableEq, Repr

def kDoublingMarginPct : UInt64 := 97

def kMaxShift : UInt8 := 30

/-- One pass of the loop: the time since the start as its condition reads it, and what the probe
answers after the sleep. -/
structure Poll where
  elapsed : Int
  answer : Option DutTcpInfo
  deriving DecidableEq, Repr

/-- The loop's variables. -/
structure Watch where
  obs : RtoCeilingObservation := {}
  grown : Bool := false
  deriving DecidableEq, Repr

/-- `prev.rto_us` doubled once for each timeout since, the shift capped. -/
def doubled (prev last : DutTcpInfo) : UInt64 :=
  let timeouts := last.retransmits - prev.retransmits
  prev.rtoUs.toUInt64 <<< (if timeouts < kMaxShift then timeouts else kMaxShift).toUInt64

/-- The loop's body after the sleep: `.error` returns the observation, `.ok` goes round again. -/
def pollStep (upperUs : UInt32) (w : Watch) (probe : Option DutTcpInfo) :
    Except RtoCeilingObservation Watch :=
  match probe with
  | none =>
    if w.obs.valid then .error { w.obs with outcome := .socketLost }
    else .ok w
  | some info =>
    let prev := w.obs.last
    let hadPrev := w.obs.valid
    let obs := { w.obs with last := info, valid := true }
    if info.rtoUs > upperUs then .error { obs with outcome := .upperBoundExceeded }
    else if !hadPrev || prev.rtoUs == 0 || info.retransmits ≤ prev.retransmits then
      .ok { w with obs := obs }
    else if w.grown && info.rtoUs.toUInt64 * 100 < doubled prev info * kDoublingMarginPct then
      .error { obs with outcome := .ceilingReached }
    else if info.rtoUs > prev.rtoUs then .ok { obs := obs, grown := true }
    else .ok { w with obs := obs }

def pollLoop (budget : Int) (upperUs : UInt32) : List Poll → Watch → Option RtoCeilingObservation
  | [], _ => none
  | p :: ps, w =>
    if p.elapsed < budget then
      match pollStep upperUs w p.answer with
      | .error obs => some obs
      | .ok w => pollLoop budget upperUs ps w
    else if w.obs.valid then some { w.obs with outcome := .budgetExhausted }
    else some w.obs

/-- `none` when the polls given run out before the loop does. -/
def observeRtoCeiling (budget : Int) (upperUs : UInt32) (polls : List Poll) :
    Option RtoCeilingObservation :=
  pollLoop budget upperUs polls {}

/-- The loop returns as soon as the clock has reached the budget. -/
theorem observeRtoCeiling_returns {budget : Int} {polls : List Poll} (upperUs : UInt32)
    (h : ∃ p ∈ polls, budget ≤ p.elapsed) : (observeRtoCeiling budget upperUs polls).isSome := by
  obtain ⟨p, hp, hb⟩ := h
  unfold observeRtoCeiling
  generalize ({} : Watch) = w
  induction polls generalizing w with
  | nil => cases hp
  | cons q qs ih =>
    simp only [pollLoop]
    split
    · next hlt =>
      have hqs : p ∈ qs := by
        rcases List.mem_cons.1 hp with rfl | hmem
        · omega
        · exact hmem
      split
      · rfl
      · exact ih hqs _
    · split <;> rfl

/-! ## The sender -/

/-- The RTO after each timeout of a sender that holds it for its first `j` timeouts and then doubles
it up to `cap`, where it stays. -/
structure BacksOff (rto : Nat → Nat) (j cap : Nat) : Prop where
  start : rto 0 ≤ cap
  flat : ∀ k, k < j → rto (k + 1) = rto k
  doubles : ∀ k, j ≤ k → rto (k + 1) = min cap (2 * rto k)

namespace BacksOff

variable {rto : Nat → Nat} {j cap : Nat} (h : BacksOff rto j cap)

include h

theorem le_cap (k : Nat) : rto k ≤ cap := by
  induction k with
  | zero => exact h.start
  | succ k ih =>
    rcases Nat.lt_or_ge k j with hk | hk
    · rw [h.flat k hk]
      exact ih
    · rw [h.doubles k hk]
      exact Nat.min_le_left _ _

theorem eq_start {k : Nat} (hk : k ≤ j) : rto k = rto 0 := by
  induction k with
  | zero => rfl
  | succ k ih => rw [h.flat k hk, ih (by omega)]

/-- Past the flat timeouts, `t` more of them double the RTO `t` times or reach the cap. -/
theorem add_timeouts {k : Nat} (hk : j ≤ k) (t : Nat) :
    rto (k + t) = cap ∨ rto (k + t) = rto k * 2 ^ t := by
  induction t with
  | zero => exact .inr (by simp)
  | succ t ih =>
    have hstep := h.doubles (k + t) (by omega)
    rw [Nat.add_assoc] at hstep
    rcases Nat.le_total cap (2 * rto (k + t)) with hle | hle
    · exact .inl (by rw [hstep, Nat.min_eq_left hle])
    · rcases ih with ih | ih
      · exact .inl (by rw [hstep]; omega)
      · right
        rw [hstep, Nat.min_eq_right hle, ih, Nat.pow_succ, Nat.mul_left_comm, Nat.mul_comm 2]

end BacksOff

/-- The sender from its first RTO. -/
theorem backsOff_min (start cap j : Nat) :
    BacksOff (fun k => min cap (start * 2 ^ (k - j))) j cap := by
  constructor
  · exact Nat.min_le_left _ _
  · intro k hk
    have hzero : k + 1 - j = 0 ∧ k - j = 0 := by omega
    simp [hzero]
  · intro k hk
    obtain ⟨t, rfl⟩ := Nat.exists_eq_add_of_le hk
    have hsucc : j + t + 1 - j = t + 1 := by omega
    have hpow : start * 2 ^ (t + 1) = 2 * (start * 2 ^ t) := by
      rw [Nat.pow_succ, ← Nat.mul_assoc, Nat.mul_comm]
    simp only [hsucc, Nat.add_sub_cancel_left, hpow]
    omega

/-- What the polls answer when the sender has had `k` timeouts: each answer carries the number of
timeouts so far, below 256, and the RTO they left. A poll may go unanswered. -/
def Answers (rto : Nat → Nat) : Nat → List Poll → Prop
  | _, [] => True
  | k, p :: ps =>
    match p.answer with
    | none => Answers rto k ps
    | some info =>
      ∃ t, info.retransmits.toNat = k + t ∧ k + t < 256 ∧ info.rtoUs.toNat = rto (k + t) ∧
        Answers rto (k + t) ps

/-! ## The loop on its answers -/

/-- Between two passes, `k` timeouts into the run: `last` is what the sender reported after the last
of them that was seen, and growth was seen only past the flat timeouts. -/
structure Seen (rto : Nat → Nat) (j k : Nat) (w : Watch) : Prop where
  outcome : w.obs.outcome = .notObserved
  count : w.obs.valid = true → w.obs.last.retransmits.toNat = k
  rto : w.obs.valid = true → w.obs.last.rtoUs.toNat = rto k
  grown : w.grown = true → j ≤ k

theorem seen_start (rto : Nat → Nat) (j : Nat) : Seen rto j 0 {} :=
  ⟨rfl, by simp, by simp, by simp⟩

/-- The product wraps in 64 bits at worst, so it never exceeds the exact one. -/
theorem toNat_doubled_le (prev last : DutTcpInfo) {t : Nat}
    (ht : last.retransmits.toNat = prev.retransmits.toNat + t) :
    (doubled prev last * kDoublingMarginPct).toNat ≤ prev.rtoUs.toNat * 2 ^ t * 97 := by
  have hlast := last.retransmits.toNat_lt
  have hsub : (last.retransmits - prev.retransmits).toNat = t := by
    rw [UInt8.toNat_sub_of_le _ _ (by rw [UInt8.le_iff_toNat_le]; omega)]
    omega
  have hshift : (if last.retransmits - prev.retransmits < kMaxShift then
      last.retransmits - prev.retransmits else kMaxShift).toUInt64.toNat % 64 ≤ t := by
    split
    · rw [UInt8.toNat_toUInt64, hsub]
      exact Nat.mod_le _ _
    · next hge =>
      rw [UInt8.lt_iff_toNat_lt, hsub] at hge
      exact (Nat.le_of_not_lt hge)
  rw [UInt64.toNat_mul]
  refine Nat.le_trans (Nat.mod_le _ _) (Nat.mul_le_mul ?_ (by decide))
  rw [doubled, UInt64.toNat_shiftLeft, UInt32.toNat_toUInt64, Nat.shiftLeft_eq]
  exact Nat.le_trans (Nat.mod_le _ _)
    (Nat.mul_le_mul_left _ (Nat.pow_le_pow_right (by omega) hshift))

section Sound

variable {rto : Nat → Nat} {j cap k : Nat} {upperUs : UInt32} {w : Watch} {info : DutTcpInfo}
  {t : Nat} (h : BacksOff rto j cap) (hcap : cap ≤ upperUs.toNat) (hs : Seen rto j k w)
  (hcount : info.retransmits.toNat = k + t) (hrto : info.rtoUs.toNat = rto (k + t))

include h hs hcount hrto in
/-- Once growth was seen, an RTO below its doubling is the cap. -/
theorem Seen.eq_cap (hvalid : w.obs.valid = true) (hgrown : w.grown = true)
    (hlow : info.rtoUs.toUInt64 * 100 < doubled w.obs.last info * kDoublingMarginPct) :
    info.rtoUs.toNat = cap := by
  have hbound := toNat_doubled_le w.obs.last info (t := t) (by rw [hcount, hs.count hvalid])
  rw [hs.rto hvalid] at hbound
  rw [UInt64.lt_iff_toNat_lt, UInt64.toNat_mul, UInt32.toNat_toUInt64] at hlow
  have hfits := info.rtoUs.toNat_lt
  have h100 : (100 : UInt64).toNat = 100 := rfl
  rw [h100, Nat.mod_eq_of_lt (by omega)] at hlow
  rcases h.add_timeouts (hs.grown hgrown) t with hcapped | hdoubled
  · exact hrto.trans hcapped
  · rw [← hdoubled, ← hrto] at hbound
    omega

include h hs hrto in
/-- An RTO above the last one seen is past the flat timeouts. -/
theorem Seen.past_flat (hvalid : w.obs.valid = true) (hup : info.rtoUs > w.obs.last.rtoUs) :
    j ≤ k + t := by
  by_contra hlt
  have hk : rto k = rto 0 := h.eq_start (by omega)
  have hkt : rto (k + t) = rto 0 := h.eq_start (by omega)
  rw [gt_iff_lt, UInt32.lt_iff_toNat_lt, hs.rto hvalid, hrto, hk, hkt] at hup
  exact Nat.lt_irrefl _ hup

include h hcap hs hcount hrto in
theorem pollStep_answered :
    (∀ obs, pollStep upperUs w (some info) = .error obs →
      obs.outcome = .ceilingReached ∧ obs.last.rtoUs.toNat = cap) ∧
    ∀ w', pollStep upperUs w (some info) = .ok w' → Seen rto j (k + t) w' := by
  have hle : ¬ info.rtoUs > upperUs := by
    have := h.le_cap (k + t)
    rw [gt_iff_lt, UInt32.lt_iff_toNat_lt]
    omega
  have hgrown : w.grown = true → j ≤ k + t := fun hg => Nat.le_add_right_of_le (hs.grown hg)
  simp only [pollStep, if_neg hle]
  split
  · refine ⟨nofun, ?_⟩
    rintro _ ⟨⟩
    exact ⟨hs.outcome, fun _ => hcount, fun _ => hrto, hgrown⟩
  · next hprev =>
    simp only [Bool.or_eq_true, not_or, Bool.not_eq_true', Bool.not_eq_false] at hprev
    have hvalid : w.obs.valid = true := hprev.1.1
    split
    · next hlow =>
      rw [Bool.and_eq_true, decide_eq_true_eq] at hlow
      refine ⟨?_, nofun⟩
      rintro _ ⟨⟩
      exact ⟨rfl, hs.eq_cap h hcount hrto hvalid hlow.1 hlow.2⟩
    · split
      · next hup =>
        refine ⟨nofun, ?_⟩
        rintro _ ⟨⟩
        exact ⟨hs.outcome, fun _ => hcount, fun _ => hrto,
          fun _ => hs.past_flat h hrto hvalid hup⟩
      · refine ⟨nofun, ?_⟩
        rintro _ ⟨⟩
        exact ⟨hs.outcome, fun _ => hcount, fun _ => hrto, hgrown⟩

include h hcap in
theorem pollLoop_sound {budget : Int} {polls : List Poll} {obs : RtoCeilingObservation}
    (hs : Seen rto j k w) (hp : Answers rto k polls)
    (hr : pollLoop budget upperUs polls w = some obs) :
    obs.outcome ≠ .upperBoundExceeded ∧
      (obs.outcome = .ceilingReached → obs.last.rtoUs.toNat = cap) := by
  induction polls generalizing k w with
  | nil => cases hr
  | cons p ps ih =>
    simp only [pollLoop] at hr
    split at hr
    · cases ha : p.answer with
      | none =>
        rw [Answers, ha] at hp
        cases hvalid : w.obs.valid with
        | true =>
          simp only [ha, pollStep, hvalid, if_true, Option.some.injEq] at hr
          subst hr
          simp
        | false =>
          simp only [ha, pollStep, hvalid, Bool.false_eq_true, if_false] at hr
          exact ih hs hp hr
      | some info =>
        rw [Answers, ha] at hp
        obtain ⟨t, hcount, -, hrto, hrest⟩ := hp
        obtain ⟨herror, hok⟩ := pollStep_answered h hcap hs hcount hrto
        rw [ha] at hr
        cases hstep : pollStep upperUs w (some info) with
        | error last =>
          rw [hstep] at hr
          cases hr
          obtain ⟨hout, hlast⟩ := herror _ hstep
          exact ⟨by simp [hout], fun _ => hlast⟩
        | ok w' =>
          rw [hstep] at hr
          exact ih (hok w' hstep) hrest hr
    · split at hr
      · cases hr
        simp
      · cases hr
        simp [hs.outcome]

end Sound

/-- **The observed ceiling is the sender's**: against a sender that backs off up to a cap within
`upperUs`, the bound is never reported exceeded, and a ceiling reported is the cap. -/
theorem rto_ceiling_sound {rto : Nat → Nat} {j cap : Nat} {upperUs : UInt32} {budget : Int}
    {polls : List Poll} {obs : RtoCeilingObservation} (h : BacksOff rto j cap)
    (hcap : cap ≤ upperUs.toNat) (hpolls : Answers rto 0 polls)
    (hobs : observeRtoCeiling budget upperUs polls = some obs) :
    obs.outcome ≠ .upperBoundExceeded ∧
      (obs.outcome = .ceilingReached → obs.last.rtoUs.toNat = cap) :=
  pollLoop_sound h hcap (seen_start rto j) hpolls hobs

/-- A cap of 60 s after one flat timeout: the first poll is unanswered, the second pair spans the edge,
and 32 s followed by 60 s is the ceiling. -/
theorem rto_ceiling_at_sixty_seconds :
    let info (retransmits : UInt8) (rtoUs : UInt32) : DutTcpInfo := { retransmits, rtoUs }
    let polls : List Poll := [⟨0, none⟩, ⟨500, some (info 0 1000000)⟩, ⟨4000, some (info 2 2000000)⟩,
      ⟨31000, some (info 6 32000000)⟩, ⟨64000, some (info 7 60000000)⟩]
    observeRtoCeiling 180000 63000000 polls =
        some { outcome := .ceilingReached, valid := true, last := info 7 60000000 } ∧
      (info 7 60000000).rtoUs.toNat = 60000000 := by
  intro info polls
  have hobs : observeRtoCeiling 180000 63000000 polls =
      some { outcome := .ceilingReached, valid := true, last := info 7 60000000 } := by decide
  have hpolls : Answers (fun k => min 60000000 (1000000 * 2 ^ (k - 1))) 0 polls :=
    ⟨0, by decide, by decide, by decide, 2, by decide, by decide, by decide, 4, by decide, by decide,
      by decide, 1, by decide, by decide, by decide, trivial⟩
  exact ⟨hobs, (rto_ceiling_sound (backsOff_min 1000000 60000000 1) (by decide) hpolls hobs).2 rfl⟩

end Tc8Harness.Sce.Tcp
