import Tc8Harness.Dut.LinklocalResponder
import Tc8Harness.Lib.Trace

/-!
# What a link-local run leaves in its log

The log of every run is orderly: an address picked after `kMaxConflicts` conflicts of its claim attempt is
picked no earlier than the rate limit allows, every picked address is in the range of RFC 3927, and every
Announce and every defending Reply has an address that was committed after three Probes for it with no
conflict recorded since it was picked.
-/

namespace Tc8Harness.Dut.Linklocal

open Wire BigEndian

/-! ## Reading the log -/

/-- The instants at which addresses were given up since the claim attempt began. -/
def abandonStep (times : List Nat) (e : Entry) : List Nat :=
  match e.event with
  | .attempt => []
  | .abandoned => times ++ [e.at_]
  | _ => times

def abandonments (log : List Entry) : List Nat := log.foldl abandonStep []

def probedAddress (e : Entry) : Option UInt32 :=
  match e.event with
  | .probe a => some a
  | _ => none

/-- The addresses of the Probes of the log. -/
def probes (log : List Entry) : List UInt32 := log.filterMap probedAddress

/-- The address was picked last, with this many Probes for it since, and no conflict if `clean` holds. -/
def Tried (log : List Entry) (a : UInt32) (n : Nat) (clean : Prop) : Prop :=
  ∃ older t tried, log = older ++ ⟨t, .picked a⟩ :: tried ∧ probes tried = List.replicate n a ∧
    (∀ e ∈ tried, ∀ b, e.event ≠ .picked b) ∧ (clean → ∀ e ∈ tried, ∀ b, e.event ≠ .conflict b)

/-- The address was committed last: after three Probes for it, with no other pick and no conflict since it
was picked. -/
def Claims (log : List Entry) (a : UInt32) : Prop :=
  ∃ older t tried t' held, log = older ++ ⟨t, .picked a⟩ :: (tried ++ ⟨t', .committed a⟩ :: held) ∧
    probes tried = List.replicate 3 a ∧ (∀ e ∈ tried, ∀ b, e.event ≠ .picked b) ∧
    (∀ e ∈ tried, ∀ b, e.event ≠ .conflict b) ∧
    ∀ e ∈ held, ∀ b, e.event ≠ .picked b ∧ e.event ≠ .committed b

/-- What is asked of an entry, given those before it. -/
structure Orderly (params : Params) (past : List Entry) (e : Entry) : Prop where
  rateLimited : ∀ a, e.event = .picked a → kMaxConflicts ≤ (abandonments past).length →
    ∃ t, (abandonments past).getLast? = some t ∧ t + params.rateLimitIntervalMs ≤ e.at_
  inRange : ∀ a, e.event = .picked a →
    ∃ x y : UInt8, 1 ≤ x ∧ x ≤ 254 ∧ bytes32 a = [169, 254, x, y]
  claimed : ∀ a, e.event = .announce a ∨ e.event = .reply a → Claims past a

variable {params : Params} {dutMac : List UInt8} {log : List Entry} {a : UInt32} {n t : Nat}
  {clean : Prop} {e : Entry}

theorem abandonments_concat (log : List Entry) (e : Entry) :
    abandonments (log ++ [e]) = abandonStep (abandonments log) e := by
  rw [abandonments, List.foldl_append]
  rfl

theorem probes_concat (log : List Entry) (e : Entry) :
    probes (log ++ [e]) = probes log ++ (probedAddress e).toList := by
  rw [probes, List.filterMap_append, ← probes]
  cases h : probedAddress e <;> simp [h]

theorem tried_picked (log : List Entry) (t : Nat) (a : UInt32) (clean : Prop) :
    Tried (log ++ [⟨t, .picked a⟩]) a 0 clean :=
  ⟨log, t, [], rfl, rfl, nofun, nofun⟩

theorem Tried.probed (h : Tried log a n clean) (t : Nat) :
    Tried (log ++ [⟨t, .probe a⟩]) a (n + 1) clean := by
  obtain ⟨older, t', tried, rfl, hprobes, hpicks, hclean⟩ := h
  refine ⟨older, t', tried ++ [⟨t, .probe a⟩], by simp, ?_, ?_, fun hc => ?_⟩
  · rw [probes_concat, hprobes, List.replicate_succ']
    rfl
  · exact List.forall_mem_append.2 ⟨hpicks, List.forall_mem_singleton.2 nofun⟩
  · exact List.forall_mem_append.2 ⟨hclean hc, List.forall_mem_singleton.2 nofun⟩

/-- Another entry leaves the Probes as they are; a conflict means that nothing is clean any more. -/
theorem Tried.concat {clean' : Prop} (h : Tried log a n clean) (hpick : ∀ b, e.event ≠ .picked b)
    (hprobe : probedAddress e = none) (hclean : clean' → clean ∧ ∀ b, e.event ≠ .conflict b) :
    Tried (log ++ [e]) a n clean' := by
  obtain ⟨older, t', tried, rfl, hprobes, hpicks, hnone⟩ := h
  refine ⟨older, t', tried ++ [e], by simp, ?_, ?_, fun hc => ?_⟩
  · rw [probes_concat, hprobes, hprobe]
    exact List.append_nil _
  · exact List.forall_mem_append.2 ⟨hpicks, List.forall_mem_singleton.2 hpick⟩
  · exact List.forall_mem_append.2 ⟨hnone (hclean hc).1, List.forall_mem_singleton.2 (hclean hc).2⟩

theorem Tried.committed (h : Tried log a 3 clean) (hclean : clean) (t : Nat) :
    Claims (log ++ [⟨t, .committed a⟩]) a := by
  obtain ⟨older, t', tried, rfl, hprobes, hpicks, hnone⟩ := h
  exact ⟨older, t', tried, t, [], by simp, hprobes, hpicks, hnone hclean, nofun⟩

theorem Claims.concat (h : Claims log a) (hpick : ∀ b, e.event ≠ .picked b)
    (hcommit : ∀ b, e.event ≠ .committed b) : Claims (log ++ [e]) a := by
  obtain ⟨older, t, tried, t', held, rfl, hprobes, hpicks, hnone, hheld⟩ := h
  refine ⟨older, t, tried, t', held ++ [e], by simp, hprobes, hpicks, hnone, ?_⟩
  exact List.forall_mem_append.2 ⟨hheld, List.forall_mem_singleton.2 fun b => ⟨hpick b, hcommit b⟩⟩

/-- The four bytes of a drawn address, as `htonl` leaves them. -/
theorem bytes32_llAddress (x y : UInt8) : bytes32 (State.llAddress x y) = [169, 254, x, y] := by
  have hlt : ofBE [y, x, 254, 169] < 2 ^ 32 := (ofBE_lt [y, x, 254, 169]).trans_eq (by norm_num)
  have hnat : (State.llAddress x y).toNat = ofBE [y, x, 254, 169] :=
    (UInt32.toNat_ofNat).trans (Nat.mod_eq_of_lt hlt)
  rw [bytes32, hnat, show (4 : Nat) = [y, x, 254, 169].length from rfl, toBE_ofBE]
  rfl

/-! ## The invariant -/

/-- The places of the worker from the commit to the end of the claim, or of the run. -/
def Worker.afterClaim : Worker → Bool
  | .announce _ | .announceInterval _ | .steady | .ceased | .done => true
  | _ => false

/-- The worker's duty fits its place. -/
def Duty.Fits : Duty → Worker → Prop
  | .none, _ => True
  | .stopping, w => w = .ceased
  | .replacing, w | .starting _, w | .sending, w => ∃ i, w = .announce i

/-- The worker has duties only while an address is claimed. -/
theorem Duty.Fits.none {d : Duty} {w : Worker} (h : d.Fits w) (hw : w.afterClaim = false) :
    d = .none := by
  cases d with
  | none => rfl
  | stopping =>
    obtain rfl : w = .ceased := h
    nomatch hw
  | replacing | starting _ | sending =>
    obtain ⟨i, rfl⟩ := h
    nomatch hw

namespace Host

variable {h h' : Host}

/-- How far the log says the worker is. -/
def Place (h : Host) : Worker → Prop
  | .probeWait _ => Tried h.log h.tentativeLl 0 (h.conflictDetected = false)
  | .probe i => i ≤ 2 ∧ Tried h.log h.tentativeLl i (h.conflictDetected = false)
  | .probed i => i ≤ 2 ∧ Tried h.log h.tentativeLl (i + 1) (h.conflictDetected = false)
  | .interval i | .intervalWait i _ | .intervalEnded i =>
    i < 2 ∧ Tried h.log h.tentativeLl (i + 1) (h.conflictDetected = false)
  | .announceWait _ | .stopping (.judge _) | .joining (.judge _) =>
    Tried h.log h.tentativeLl 3 (h.conflictDetected = false)
  | .judgeStop _ | .judgeConflict _ =>
    h.listener = .absent ∧ Tried h.log h.tentativeLl 3 (h.conflictDetected = false)
  | .commit _ =>
    h.listener = .absent ∧ h.conflictDetected = false ∧
      Tried h.log h.tentativeLl 3 (h.conflictDetected = false)
  | .announce _ | .announceInterval _ | .steady | .ceased =>
    h.tentativeLl = h.committedAddress ∧ Claims h.log h.committedAddress
  | _ => True

/-- The worker's count is the log's, and the rate limit follows it. -/
structure Counted (h : Host) : Prop where
  count : h.conflictCount = (abandonments h.log).length
  active : h.rateLimitActive = true ↔ kMaxConflicts ≤ h.conflictCount

/-- The last address was given up so long before an instant. -/
def Waited (h : Host) (ms instant : Nat) : Prop :=
  h.rateLimitActive = true → ∃ t, (abandonments h.log).getLast? = some t ∧ t + ms ≤ instant

/-- How much of the rate limit the worker has waited for. -/
def Rate (params : Params) (h : Host) : Worker → Prop
  | .discover | .dhcpWait _ | .outer | .done => True
  | .announce _ | .announceInterval _ | .steady | .ceased => True
  | .attempt => h.Counted ∧ h.Waited 0 h.now
  | .rateLimitWait deadline => h.Counted ∧ h.Waited params.rateLimitIntervalMs deadline
  | .pick => h.Counted ∧ h.Waited params.rateLimitIntervalMs h.now
  | _ => h.Counted

structure Inv (params : Params) (h : Host) : Prop where
  duty : h.duty.Fits h.worker
  place : h.Place h.worker
  rate : h.Rate params h.worker
  responder : h.responder.gone = true ∨
    h.worker.afterClaim = true ∧ Claims h.log h.committedAddress
  log : Trace.Holds (Orderly params) h.log

/-! ## Steps that record nothing -/

/-- The worker has moved or waits, and what the log is compared with is as it was. -/
structure Stays (h h' : Host) : Prop where
  now : h.now ≤ h'.now := by exact Nat.le_refl _
  tentativeLl : h'.tentativeLl = h.tentativeLl := by rfl
  conflictDetected : h'.conflictDetected = h.conflictDetected := by rfl
  committedAddress : h'.committedAddress = h.committedAddress := by rfl
  conflictCount : h'.conflictCount = h.conflictCount := by rfl
  rateLimitActive : h'.rateLimitActive = h.rateLimitActive := by rfl
  listener : h.listener = .absent → h'.listener = .absent := by exact id
  log : h'.log = h.log := by rfl

theorem Stays.place (hs : Stays h h') {w : Worker} (hplace : h.Place w) : h'.Place w := by
  cases w with
  | judgeStop _ | judgeConflict _ | commit _ =>
    simp only [Place, hs.tentativeLl, hs.conflictDetected, hs.log] at hplace ⊢
    exact ⟨hs.listener hplace.1, hplace.2⟩
  | stopping next | joining next =>
    cases next with
    | quit | early => trivial
    | judge _ => simpa only [Place, hs.tentativeLl, hs.conflictDetected, hs.log] using hplace
  | discover | dhcpWait _ | outer | attempt | rateLimitWait _ | pick | done => trivial
  | probeWait _ | probe _ | probed _ | interval _ | intervalWait _ _ | intervalEnded _
  | announceWait _ | announce _ | announceInterval _ | steady | ceased =>
    simpa only [Place, hs.tentativeLl, hs.conflictDetected, hs.committedAddress, hs.log] using hplace

theorem Stays.waited (hs : Stays h h') {ms t u : Nat} (hwaited : h.Waited ms t) (hle : t ≤ u) :
    h'.Waited ms u := by
  intro hactive
  rw [hs.rateLimitActive] at hactive
  obtain ⟨t₀, hlast, hlong⟩ := hwaited hactive
  rw [hs.log]
  exact ⟨t₀, hlast, Nat.le_trans hlong hle⟩

theorem Stays.counted (hs : Stays h h') (hcounted : h.Counted) : h'.Counted := by
  refine ⟨?_, ?_⟩
  · rw [hs.conflictCount, hs.log]
    exact hcounted.count
  · rw [hs.rateLimitActive, hs.conflictCount]
    exact hcounted.active

theorem Stays.rate (hs : Stays h h') {w : Worker} (hrate : h.Rate params w) : h'.Rate params w := by
  cases w with
  | attempt | pick => exact ⟨hs.counted hrate.1, hs.waited hrate.2 hs.now⟩
  | rateLimitWait deadline => exact ⟨hs.counted hrate.1, hs.waited hrate.2 (Nat.le_refl _)⟩
  | discover | dhcpWait _ | outer | done | announce _ | announceInterval _ | steady | ceased => trivial
  | probeWait _ | probe _ | probed _ | interval _ | intervalWait _ _ | intervalEnded _
  | announceWait _ | stopping _ | joining _ | judgeStop _ | judgeConflict _ | commit _ =>
    exact hs.counted hrate

/-- A step to a place of which everything already holds. -/
theorem Inv.goto (hinv : Inv params h) (hs : Stays h h') (hduty : h'.duty.Fits h'.worker)
    (hplace : h.Place h'.worker) (hrate : h.Rate params h'.worker)
    (hresponder : h'.responder.gone = true ∨
      h'.worker.afterClaim = true ∧ Claims h.log h.committedAddress) : Inv params h' := by
  refine ⟨hduty, hs.place hplace, hs.rate hrate, ?_, ?_⟩
  · rw [hs.log, hs.committedAddress]
    exact hresponder
  · rw [hs.log]
    exact hinv.log

theorem Inv.gone (hinv : Inv params h) (hw : h.worker.afterClaim = false) :
    h.responder.gone = true := by
  refine hinv.responder.resolve_right fun hclaim => ?_
  rw [hw] at hclaim
  nomatch hclaim.1

/-- The worker goes from one place to the next with nothing else to do. -/
theorem Inv.walk (hinv : Inv params h) (hs : Stays h h') (hduty : h'.duty = .none)
    (hresponder : h'.responder = h.responder)
    (hafter : h.worker.afterClaim = true → h'.worker.afterClaim = true)
    (hplace : h.Place h'.worker) (hrate : h.Rate params h'.worker) : Inv params h' := by
  refine hinv.goto hs (by rw [hduty]; trivial) hplace hrate ?_
  rw [hresponder]
  exact hinv.responder.imp_right (And.imp_left hafter)

/-- A step of another thread. -/
theorem Inv.rest (hinv : Inv params h) (hs : Stays h h') (hworker : h'.worker = h.worker)
    (hduty : h'.duty = h.duty)
    (hresponder : h'.responder.gone = true ∨ h.responder.gone = false) : Inv params h' := by
  refine hinv.goto hs ?_ ?_ ?_ ?_
  · rw [hduty, hworker]
    exact hinv.duty
  · rw [hworker]
    exact hinv.place
  · rw [hworker]
    exact hinv.rate
  · rw [hworker]
    rcases hresponder with hgone | halive
    · exact .inl hgone
    · refine hinv.responder.elim (fun hgone => ?_) .inr
      rw [halive] at hgone
      nomatch hgone

/-! ## Steps that record an event -/

/-- An entry that is no pick, no Announce and no Reply. -/
theorem orderly_other {past : List Entry} (hpick : ∀ b, e.event ≠ .picked b)
    (hsent : ∀ b, e.event ≠ .announce b ∧ e.event ≠ .reply b) : Orderly params past e where
  rateLimited b he := (hpick b he).elim
  inRange b he := (hpick b he).elim
  claimed b he := he.elim (fun he => ((hsent b).1 he).elim) fun he => ((hsent b).2 he).elim

theorem orderly_claimed {past : List Entry} (he : e.event = .announce a ∨ e.event = .reply a)
    (hclaims : Claims past a) : Orderly params past e where
  rateLimited b hb := by rcases he with he | he <;> rw [he] at hb <;> nomatch hb
  inRange b hb := by rcases he with he | he <;> rw [he] at hb <;> nomatch hb
  claimed b hb := by
    have hab : a = b := by
      rcases he with he | he <;> rw [he] at hb <;> rcases hb with hb | hb <;> cases hb <;> rfl
    rwa [← hab]

/-- An address is given up. -/
theorem Inv.abandon (hinv : Inv params h) (hcounted : h.Counted) (hgone : h'.responder.gone = true)
    (hduty : h'.duty = .none) (hworker : h'.worker = .attempt) (hnow : h'.now = h.now)
    (hcount : h'.conflictCount = h.conflictCount + 1)
    (hactive : h'.rateLimitActive =
      (h.rateLimitActive || decide (h.conflictCount + 1 ≥ kMaxConflicts)))
    (hlog : h'.log = h.log ++ [⟨h.now, .abandoned⟩]) : Inv params h' := by
  have htimes : abandonments h'.log = abandonments h.log ++ [h.now] := by
    rw [hlog, abandonments_concat]
    rfl
  refine ⟨by rw [hduty]; trivial, by rw [hworker]; trivial, ?_, .inl hgone, ?_⟩
  · rw [hworker]
    refine ⟨⟨?_, ?_⟩, fun _ => ⟨h.now, ?_, ?_⟩⟩
    · rw [hcount, htimes, hcounted.count, List.length_append]
      rfl
    · rw [hactive, Bool.or_eq_true, hcounted.active, decide_eq_true_eq, hcount]
      omega
    · rw [htimes, List.getLast?_concat]
    · rw [hnow]
      exact Nat.le_refl _
  · rw [hlog]
    exact hinv.log.concat (orderly_other nofun fun _ => ⟨nofun, nofun⟩)

/-- An entry that neither begins an attempt nor gives an address up leaves the count as it is. -/
theorem Rate.concat {w : Worker} (hrate : h.Rate params w) (hlog : h'.log = h.log ++ [e])
    (hnow : h'.now = h.now) (hcount : h'.conflictCount = h.conflictCount)
    (hactive : h'.rateLimitActive = h.rateLimitActive)
    (hother : abandonStep (abandonments h.log) e = abandonments h.log) : h'.Rate params w := by
  have htimes : abandonments h'.log = abandonments h.log := by rw [hlog, abandonments_concat, hother]
  have hcounted : h.Counted → h'.Counted := by
    rintro ⟨h₁, h₂⟩
    refine ⟨?_, ?_⟩
    · rw [hcount, htimes, h₁]
    · rw [hactive, hcount]
      exact h₂
  have hwaited : ∀ {ms t : Nat}, h.Waited ms t → h'.Waited ms t := by
    intro ms t hwaited
    rw [Waited, htimes, hactive]
    exact hwaited
  cases w with
  | attempt | pick =>
    refine ⟨hcounted hrate.1, ?_⟩
    rw [hnow]
    exact hwaited hrate.2
  | rateLimitWait deadline => exact ⟨hcounted hrate.1, hwaited hrate.2⟩
  | discover | dhcpWait _ | outer | done | announce _ | announceInterval _ | steady | ceased => trivial
  | probeWait _ | probe _ | probed _ | interval _ | intervalWait _ _ | intervalEnded _
  | announceWait _ | stopping _ | joining _ | judgeStop _ | judgeConflict _ | commit _ =>
    exact hcounted hrate

/-! ## The worker's steps -/

variable {s : State}

theorem moved_quiet (hevent : workEvent h.toState = none) (s : State) :
    h.moved s = { h with toState := s } := by
  simp only [moved, hevent, Option.map_none, Option.toList_none, List.append_nil]

theorem moved_event {event : Event} (hevent : workEvent h.toState = some event) (s : State) :
    h.moved s = { h with toState := s, log := h.log ++ [⟨h.now, event⟩] } := by
  simp only [moved, hevent, Option.map_some, Option.toList_some]

/-- A wait ends, in time or for a stop. -/
theorem Inv.wake (hinv : Inv params h) (hduty : h.duty = .none) {deadline : Nat}
    {stopped next : Worker} (hstep : h.toState.wake deadline stopped next = some s)
    (hafter : h.worker.afterClaim = true → stopped.afterClaim = true ∧ next.afterClaim = true)
    (hstopped : h.Place stopped ∧ h.Rate params stopped)
    (hnext : deadline ≤ h.now → h.Place next ∧ h.Rate params next) :
    Inv params { h with toState := s } := by
  unfold State.wake at hstep
  split at hstep
  · obtain rfl := Option.some.inj hstep
    exact hinv.walk {} hduty rfl (fun h => (hafter h).1) hstopped.1 hstopped.2
  · split at hstep
    · next hdue =>
      obtain rfl := Option.some.inj hstep
      exact hinv.walk {} hduty rfl (fun h => (hafter h).2) (hnext hdue).1 (hnext hdue).2
    · nomatch hstep

theorem Inv.moved (hinv : Inv params h) (hduty : h.duty = .none)
    (hcommit : ∀ waitEnd, h.worker ≠ .commit waitEnd) (hceased : h.worker ≠ .ceased)
    (hcease : ∀ i, h.worker = .announce i → h.ceaseRequested = true)
    (hstep : h.toState.workerStep params = some s) : Inv params (h.moved s) := by
  have hplace := hinv.place
  have hrate := hinv.rate
  unfold State.workerStep at hstep
  cases hw : h.worker with
  | commit waitEnd => exact (hcommit waitEnd hw).elim
  | ceased => exact (hceased hw).elim
  | pick | interval _ | done =>
    rw [hw] at hstep
    nomatch hstep
  | discover =>
    rw [moved_quiet (by rw [workEvent, hw])]
    rw [hw] at hstep
    obtain rfl := Option.some.inj hstep
    exact hinv.walk {} hduty rfl (by rw [hw]; nofun) trivial trivial
  | dhcpWait deadline =>
    rw [moved_quiet (by rw [workEvent, hw])]
    rw [hw] at hstep
    exact hinv.wake hduty hstep (by rw [hw]; nofun) ⟨trivial, trivial⟩ fun _ => ⟨trivial, trivial⟩
  | outer =>
    rw [hw] at hstep
    dsimp only at hstep
    split at hstep
    · next hstop =>
      obtain rfl := Option.some.inj hstep
      rw [moved_quiet (by rw [workEvent, hw]; exact if_pos hstop)]
      exact hinv.walk {} hduty rfl (by rw [hw]; nofun) trivial trivial
    · next hstop =>
      obtain rfl := Option.some.inj hstep
      rw [moved_event (by rw [workEvent, hw]; exact if_neg hstop)]
      have htimes : abandonments (h.log ++ [⟨h.now, .attempt⟩]) = [] := abandonments_concat _ _
      refine ⟨by rw [hduty]; trivial, trivial, ⟨⟨?_, ?_⟩, nofun⟩, .inl (hinv.gone (by rw [hw]; rfl)), ?_⟩
      · dsimp only
        rw [htimes]
        rfl
      · dsimp only
        decide
      · exact hinv.log.concat (orderly_other nofun fun _ => ⟨nofun, nofun⟩)
  | attempt =>
    rw [moved_quiet (by rw [workEvent, hw])]
    rw [hw] at hstep hrate
    dsimp only at hstep
    split at hstep
    · obtain rfl := Option.some.inj hstep
      refine hinv.walk {} hduty rfl (by rw [hw]; nofun) trivial ⟨hrate.1, fun hactive => ?_⟩
      obtain ⟨t, hlast, hle⟩ := hrate.2 hactive
      exact ⟨t, hlast, Nat.add_le_add_right hle _⟩
    · next hinactive =>
      obtain rfl := Option.some.inj hstep
      exact hinv.walk {} hduty rfl (by rw [hw]; nofun) trivial
        ⟨hrate.1, fun hactive => (hinactive hactive).elim⟩
  | rateLimitWait deadline =>
    rw [moved_quiet (by rw [workEvent, hw])]
    rw [hw] at hstep hrate
    refine hinv.wake hduty hstep (by rw [hw]; nofun) ⟨trivial, trivial⟩ fun hdue => ⟨trivial, hrate.1, ?_⟩
    intro hactive
    obtain ⟨t, hlast, hle⟩ := hrate.2 hactive
    exact ⟨t, hlast, Nat.le_trans hle hdue⟩
  | probeWait deadline =>
    rw [moved_quiet (by rw [workEvent, hw])]
    rw [hw] at hstep hplace hrate
    exact hinv.wake hduty hstep (by rw [hw]; nofun) ⟨trivial, hrate⟩
      fun _ => ⟨⟨Nat.zero_le _, hplace⟩, hrate⟩
  | probe i =>
    rw [moved_event (by rw [workEvent, hw])]
    rw [hw] at hstep hplace hrate
    obtain rfl := Option.some.inj hstep
    refine ⟨by rw [hduty]; trivial, ⟨hplace.1, hplace.2.probed h.now⟩, ?_,
      .inl (hinv.gone (by rw [hw]; rfl)), hinv.log.concat (orderly_other nofun fun _ => ⟨nofun, nofun⟩)⟩
    exact Rate.concat (w := .probed i) hrate rfl rfl rfl rfl rfl
  | probed i =>
    rw [moved_quiet (by rw [workEvent, hw])]
    rw [hw] at hstep hplace hrate
    dsimp only at hstep
    split at hstep
    · obtain rfl := Option.some.inj hstep
      exact hinv.walk {} hduty rfl (by rw [hw]; nofun) trivial hrate
    · split at hstep
      · next hmore =>
        obtain rfl := Option.some.inj hstep
        exact hinv.walk {} hduty rfl (by rw [hw]; nofun) ⟨hmore, hplace.2⟩ hrate
      · next hlast =>
        obtain rfl := Option.some.inj hstep
        obtain rfl : i = 2 := Nat.le_antisymm hplace.1 (Nat.le_of_not_lt hlast)
        exact hinv.walk {} hduty rfl (by rw [hw]; nofun) hplace.2 hrate
  | intervalWait i deadline =>
    rw [moved_quiet (by rw [workEvent, hw])]
    rw [hw] at hstep hplace hrate
    exact hinv.wake hduty hstep (by rw [hw]; nofun) ⟨trivial, hrate⟩ fun _ => ⟨hplace, hrate⟩
  | intervalEnded i =>
    rw [moved_quiet (by rw [workEvent, hw])]
    rw [hw] at hstep hplace hrate
    dsimp only at hstep
    split at hstep
    · obtain rfl := Option.some.inj hstep
      exact hinv.walk {} hduty rfl (by rw [hw]; nofun) trivial hrate
    · obtain rfl := Option.some.inj hstep
      exact hinv.walk {} hduty rfl (by rw [hw]; nofun) hplace hrate
  | announceWait deadline =>
    rw [moved_quiet (by rw [workEvent, hw])]
    rw [hw] at hstep hplace hrate
    exact hinv.wake hduty hstep (by rw [hw]; nofun) ⟨hplace, hrate⟩ fun _ => ⟨hplace, hrate⟩
  | stopping next =>
    rw [moved_quiet (by rw [workEvent, hw])]
    rw [hw] at hstep hplace hrate
    obtain rfl := Option.some.inj hstep
    refine hinv.walk {} hduty rfl (by rw [hw]; nofun) ?_ hrate
    cases next with
    | quit | early => trivial
    | judge waitEnd => exact hplace
  | joining next =>
    have hgone := hinv.gone (by rw [hw]; rfl)
    rw [hw] at hstep hplace hrate
    have hs : s = h.toState.joined next := by
      dsimp only at hstep
      split at hstep
      · exact (Option.some.inj hstep).symm
      · exact (Option.some.inj hstep).symm
      · nomatch hstep
    subst hs
    cases next with
    | quit =>
      rw [moved_quiet (by rw [workEvent, hw])]
      exact hinv.walk { listener := fun _ => rfl } hduty rfl (by rw [hw]; nofun) trivial trivial
    | early =>
      rw [moved_event (by rw [workEvent, hw])]
      exact hinv.abandon hrate hgone hduty rfl rfl rfl rfl rfl
    | judge waitEnd =>
      rw [moved_quiet (by rw [workEvent, hw])]
      refine ⟨by rw [hduty]; trivial, ⟨rfl, hplace⟩, ?_, .inl hgone, hinv.log⟩
      exact ⟨hrate.count, hrate.active⟩
  | judgeStop waitEnd =>
    rw [moved_quiet (by rw [workEvent, hw])]
    rw [hw] at hstep hplace hrate
    dsimp only at hstep
    split at hstep
    · obtain rfl := Option.some.inj hstep
      exact hinv.walk {} hduty rfl (by rw [hw]; nofun) trivial trivial
    · obtain rfl := Option.some.inj hstep
      exact hinv.walk {} hduty rfl (by rw [hw]; nofun) hplace hrate
  | judgeConflict waitEnd =>
    have hgone := hinv.gone (by rw [hw]; rfl)
    rw [hw] at hstep hplace hrate
    dsimp only at hstep
    split at hstep
    · next hconflict =>
      obtain rfl := Option.some.inj hstep
      rw [moved_event (by rw [workEvent, hw]; exact if_pos hconflict)]
      exact hinv.abandon hrate hgone hduty rfl rfl rfl rfl rfl
    · next hclean =>
      obtain rfl := Option.some.inj hstep
      rw [moved_quiet (by rw [workEvent, hw]; exact if_neg hclean)]
      exact hinv.walk {} hduty rfl (by rw [hw]; nofun)
        ⟨hplace.1, Bool.eq_false_iff.2 hclean, hplace.2⟩ hrate
  | announce i =>
    rw [moved_quiet (by rw [workEvent, hw])]
    rw [hw] at hstep hplace
    dsimp only at hstep
    rw [if_pos (hcease i hw)] at hstep
    obtain rfl := Option.some.inj hstep
    exact hinv.walk {} hduty rfl (fun _ => rfl) hplace trivial
  | announceInterval deadline =>
    rw [moved_quiet (by rw [workEvent, hw])]
    rw [hw] at hstep hplace
    exact hinv.wake hduty hstep (fun _ => ⟨rfl, rfl⟩) ⟨trivial, trivial⟩ fun _ => ⟨hplace, trivial⟩
  | steady =>
    rw [moved_quiet (by rw [workEvent, hw])]
    rw [hw] at hstep hplace
    dsimp only at hstep
    split at hstep
    · obtain rfl := Option.some.inj hstep
      exact hinv.walk {} hduty rfl (fun _ => rfl) trivial trivial
    · split at hstep
      · obtain rfl := Option.some.inj hstep
        exact hinv.walk {} hduty rfl (fun _ => rfl) hplace trivial
      · obtain rfl := Option.some.inj hstep
        exact hinv

/-- The address is committed, and the responder is about to be started. -/
theorem Inv.commit (hinv : Inv params h) {waitEnd : Nat} (hw : h.worker = .commit waitEnd)
    (hstep : h.toState.workerStep params = some s) :
    Inv params { h.moved s with stopResponder := true, duty := .replacing } := by
  have hplace := hinv.place
  rw [hw] at hplace
  rw [moved_event (by rw [workEvent, hw])]
  rw [State.workerStep, hw] at hstep
  obtain rfl := Option.some.inj hstep
  refine ⟨⟨0, rfl⟩, ⟨rfl, hplace.2.2.committed hplace.2.1 h.now⟩, trivial,
    .inl (hinv.gone (by rw [hw]; rfl)), ?_⟩
  exact hinv.log.concat (orderly_other nofun fun _ => ⟨nofun, nofun⟩)

/-- The responder is joined, and the claim is over. -/
theorem Inv.release (hinv : Inv params h) (hw : h.worker = .ceased)
    (hstep : h.toState.workerStep params = some s) :
    Inv params { h.moved s with responder := .absent, duty := .none } := by
  rw [moved_quiet (by rw [workEvent, hw])]
  rw [State.workerStep, hw] at hstep
  obtain rfl := Option.some.inj hstep
  exact ⟨trivial, trivial, trivial, .inl rfl, hinv.log⟩

theorem Inv.announced (hinv : Inv params h) {i : Nat} (hw : h.worker = .announce i) :
    Inv params (h.announced params i) := by
  have hplace := hinv.place
  rw [hw] at hplace
  have hclaims : Claims (h.log ++ [⟨h.now, .announce h.tentativeLl⟩]) h.committedAddress :=
    hplace.2.concat nofun nofun
  have hworker : (h.announced params i).worker.afterClaim = true := by
    unfold Host.announced
    dsimp only
    split <;> rfl
  refine ⟨trivial, ?_, ?_, .inr ⟨hworker, hclaims⟩, ?_⟩
  · unfold Host.announced
    dsimp only
    split
    · exact ⟨hplace.1, hclaims⟩
    · exact ⟨hplace.1, hclaims⟩
  · unfold Host.announced
    dsimp only
    split <;> trivial
  · refine hinv.log.concat (orderly_claimed (.inl rfl) ?_)
    rw [hplace.1]
    exact hplace.2

theorem Inv.workStep (hinv : Inv params h) (hstep : h.workStep params = some h') :
    Inv params h' := by
  have hfits := hinv.duty
  have hplace := hinv.place
  unfold Host.workStep at hstep
  cases hduty : h.duty with
  | replacing =>
    rw [hduty] at hstep hfits
    obtain ⟨i, hw⟩ := hfits
    rw [hw] at hplace
    dsimp only at hstep
    split at hstep
    · obtain rfl := Option.some.inj hstep
      refine hinv.goto {} ⟨i, hw⟩ hinv.place hinv.rate (.inr ⟨?_, hplace.2⟩)
      dsimp only
      rw [hw]
      rfl
    · nomatch hstep
  | starting deadline =>
    rw [hduty] at hstep
    dsimp only at hstep
    split at hstep
    · obtain rfl := Option.some.inj hstep
      exact hinv.walk {} rfl rfl id hinv.place hinv.rate
    · nomatch hstep
  | sending =>
    rw [hduty] at hstep
    dsimp only at hstep
    split at hstep
    · next i hw =>
      obtain rfl := Option.some.inj hstep
      exact hinv.announced hw
    · nomatch hstep
  | stopping =>
    rw [hduty] at hstep hfits
    dsimp only at hstep
    split at hstep
    · obtain ⟨s, hcore, rfl⟩ := Option.map_eq_some_iff.1 hstep
      exact hinv.release hfits hcore
    · nomatch hstep
  | none =>
    rw [hduty] at hstep
    dsimp only at hstep
    split at hstep
    · next waitEnd hw =>
      obtain ⟨s, hcore, rfl⟩ := Option.map_eq_some_iff.1 hstep
      exact hinv.commit hw hcore
    · next i hw =>
      split at hstep
      · next hcease =>
        obtain ⟨s, hcore, rfl⟩ := Option.map_eq_some_iff.1 hstep
        exact hinv.moved hduty (by rw [hw]; nofun) (by rw [hw]; nofun) (fun _ _ => hcease) hcore
      · obtain rfl := Option.some.inj hstep
        exact hinv.goto {} ⟨i, hw⟩ hinv.place hinv.rate hinv.responder
    · next deadline hw =>
      obtain ⟨s, hcore, rfl⟩ := Option.map_eq_some_iff.1 hstep
      have hmoved := hinv.moved hduty (by rw [hw]; nofun) (by rw [hw]; nofun) (by rw [hw]; nofun) hcore
      exact hmoved.goto {} hmoved.duty hmoved.place hmoved.rate hmoved.responder
    · next hw =>
      obtain rfl := Option.some.inj hstep
      exact hinv.goto {} hw hinv.place hinv.rate hinv.responder
    · next hcommit hannounce _ hceased =>
      obtain ⟨s, hcore, rfl⟩ := Option.map_eq_some_iff.1 hstep
      exact hinv.moved hduty hcommit hceased (fun i hw => (hannounce i hw).elim) hcore

/-! ## The other steps -/

/-- An address is drawn after the wait it takes. -/
theorem Inv.pick (hinv : Inv params h) {x y : UInt8}
    (hstep : h.toState.pickStep params x y = some s) :
    Inv params { h.record (.picked (State.llAddress x y)) with toState := s } := by
  have hrate := hinv.rate
  unfold State.pickStep at hstep
  split at hstep
  · next hguard =>
    obtain ⟨hw, hx, hx', -⟩ := hguard
    have hfits := hinv.duty
    rw [hw] at hrate hfits
    obtain rfl := Option.some.inj hstep
    have hduty := hfits.none rfl
    refine ⟨?_, tried_picked _ _ _ _, ?_, .inl (hinv.gone (by rw [hw]; rfl)), ?_⟩
    · show h.duty.Fits _
      rw [hduty]
      trivial
    · exact Rate.concat (w := .probeWait _) hrate.1 rfl rfl rfl rfl rfl
    · refine hinv.log.concat ⟨fun b hb hmany => ?_, fun b hb => ?_, fun b hb => ?_⟩
      · rw [← hrate.1.count] at hmany
        exact hrate.2 (hrate.1.active.2 hmany)
      · obtain rfl := Event.picked.inj hb
        exact ⟨x, y, hx, hx', bytes32_llAddress x y⟩
      · rcases hb with hb | hb <;> nomatch hb
  · nomatch hstep

theorem Inv.interval (hinv : Inv params h) {ms : Nat}
    (hstep : h.toState.intervalStep params ms = some s) : Inv params { h with toState := s } := by
  have hplace := hinv.place
  have hrate := hinv.rate
  have hfits := hinv.duty
  unfold State.intervalStep at hstep
  split at hstep
  · next i hw =>
    rw [hw] at hplace hrate hfits
    split at hstep
    · obtain rfl := Option.some.inj hstep
      exact hinv.walk {} (hfits.none rfl) rfl (by rw [hw]; nofun) hplace hrate
    · nomatch hstep
  · nomatch hstep

/-- What an entry of another thread leaves of the worker's place. -/
theorem Place.concat {w : Worker} (hplace : h.Place w) (hlog : h'.log = h.log ++ [e])
    (htentative : h'.tentativeLl = h.tentativeLl) (hcommitted : h'.committedAddress = h.committedAddress)
    (hpick : ∀ b, e.event ≠ .picked b) (hprobe : probedAddress e = none)
    (hcommit : ∀ b, e.event ≠ .committed b)
    (hclean : h'.conflictDetected = false → h.conflictDetected = false ∧ ∀ b, e.event ≠ .conflict b)
    (hlistener : h.listener = .absent →
      h'.listener = .absent ∧ h'.conflictDetected = h.conflictDetected) : h'.Place w := by
  have htried : ∀ {n : Nat}, Tried h.log h.tentativeLl n (h.conflictDetected = false) →
      Tried h'.log h'.tentativeLl n (h'.conflictDetected = false) := by
    intro n htried
    rw [hlog, htentative]
    exact htried.concat hpick hprobe hclean
  cases w with
  | discover | dhcpWait _ | outer | attempt | rateLimitWait _ | pick | done => trivial
  | stopping next | joining next =>
    cases next with
    | quit | early => trivial
    | judge _ => exact htried hplace
  | probeWait _ | announceWait _ => exact htried hplace
  | probe _ | probed _ | interval _ | intervalWait _ _ | intervalEnded _ =>
    exact ⟨hplace.1, htried hplace.2⟩
  | judgeStop _ | judgeConflict _ => exact ⟨(hlistener hplace.1).1, htried hplace.2⟩
  | commit _ =>
    obtain ⟨habsent, hnone, hplace⟩ := hplace
    exact ⟨(hlistener habsent).1, (hlistener habsent).2.trans hnone, htried hplace⟩
  | announce _ | announceInterval _ | steady | ceased =>
    refine ⟨by rw [htentative, hcommitted]; exact hplace.1, ?_⟩
    rw [hlog, hcommitted]
    exact hplace.2.concat hpick hcommit

/-- An entry of a helper thread. -/
theorem Inv.concat (hinv : Inv params h) (hlog : h'.log = h.log ++ [e])
    (hworker : h'.worker = h.worker) (hduty : h'.duty = h.duty) (hnow : h'.now = h.now)
    (hcount : h'.conflictCount = h.conflictCount) (hactive : h'.rateLimitActive = h.rateLimitActive)
    (htentative : h'.tentativeLl = h.tentativeLl) (hcommitted : h'.committedAddress = h.committedAddress)
    (hresponder : h'.responder.gone = true ∨ h.responder.gone = false)
    (hpick : ∀ b, e.event ≠ .picked b) (hprobe : probedAddress e = none)
    (hcommit : ∀ b, e.event ≠ .committed b)
    (hother : abandonStep (abandonments h.log) e = abandonments h.log)
    (hclean : h'.conflictDetected = false → h.conflictDetected = false ∧ ∀ b, e.event ≠ .conflict b)
    (hlistener : h.listener = .absent →
      h'.listener = .absent ∧ h'.conflictDetected = h.conflictDetected)
    (horderly : Orderly params h.log e) : Inv params h' := by
  refine ⟨?_, ?_, ?_, ?_, ?_⟩
  · rw [hduty, hworker]
    exact hinv.duty
  · rw [hworker]
    exact hinv.place.concat hlog htentative hcommitted hpick hprobe hcommit hclean hlistener
  · rw [hworker]
    exact hinv.rate.concat hlog hnow hcount hactive hother
  · rcases hresponder with hgone | halive
    · exact .inl hgone
    · rw [hworker, hlog, hcommitted]
      refine .inr (hinv.responder.elim (fun hgone => ?_) (And.imp_right (·.concat hpick hcommit)))
      rw [halive] at hgone
      nomatch hgone
  · rw [hlog]
    exact hinv.log.concat horderly

/-- A listener step that records no conflict. -/
theorem listenerStep_quiet {s s' : State} {ok : Bool}
    (hquiet : ∀ buf, s.listener = .holding buf → conflicts dutMac s.tentativeLl buf = false)
    (hstep : s.listenerStep dutMac ok = some s') :
    s'.conflictDetected = s.conflictDetected := by
  grind [State.listenerStep]

theorem listenerStep_rest {s s' : State} {ok : Bool} (hstep : s.listenerStep dutMac ok = some s') :
    s'.worker = s.worker ∧ s'.now = s.now ∧ s'.tentativeLl = s.tentativeLl ∧
      s'.committedAddress = s.committedAddress ∧ s'.conflictCount = s.conflictCount ∧
      s'.rateLimitActive = s.rateLimitActive ∧ s.listener ≠ .absent := by
  grind [State.listenerStep]

theorem Inv.listenStep (hinv : Inv params h) {ok : Bool} (hstep : h.listenStep dutMac ok = some h') :
    Inv params h' := by
  unfold Host.listenStep at hstep
  obtain ⟨s, hcore, rfl⟩ := Option.map_eq_some_iff.1 hstep
  obtain ⟨hworker, hnow, htentative, hcommitted, hcount, hactive, hpresent⟩ := listenerStep_rest hcore
  have hrest : (∀ buf, h.listener = .holding buf → conflicts dutMac h.tentativeLl buf = false) →
      Inv params { h with toState := s } := by
    intro hquiet
    refine hinv.goto ⟨Nat.le_of_eq hnow.symm, htentative, listenerStep_quiet hquiet hcore, hcommitted, hcount,
      hactive, fun habsent => (hpresent habsent).elim, rfl⟩ ?_ ?_ ?_ ?_
    · dsimp only
      rw [hworker]
      exact hinv.duty
    · dsimp only
      rw [hworker]
      exact hinv.place
    · dsimp only
      rw [hworker]
      exact hinv.rate
    · dsimp only
      rw [hworker]
      exact hinv.responder
  dsimp only
  split
  · next buf hl =>
    split
    · next hconflict =>
      rw [State.listenerStep, hl] at hcore
      dsimp only at hcore
      rw [if_pos hconflict] at hcore
      obtain rfl := Option.some.inj hcore
      refine hinv.concat rfl rfl rfl rfl rfl rfl rfl rfl ?_ nofun rfl nofun rfl nofun
        (fun habsent => (hpresent habsent).elim) (orderly_other nofun fun _ => ⟨nofun, nofun⟩)
      exact Bool.eq_false_or_eq_true h.responder.gone
    · next hclean =>
      refine hrest fun buf' hbuf => ?_
      rw [hl] at hbuf
      obtain rfl := Listener.holding.inj hbuf
      exact Bool.eq_false_iff.2 hclean
  · next hother => exact hrest fun buf hbuf => (hother buf hbuf).elim

theorem Inv.respondStep (hinv : Inv params h) {ok : Bool}
    (hstep : h.respondStep dutMac ok = some h') : Inv params h' := by
  have hclaims : h.responder.gone = false → Claims h.log h.committedAddress := by
    intro halive
    refine hinv.responder.elim (fun hgone => ?_) And.right
    rw [halive] at hgone
    nomatch hgone
  unfold Host.respondStep at hstep
  cases hr : h.responder with
  | absent | finished =>
    rw [hr] at hstep
    nomatch hstep
  | opening | opened | bound | closing =>
    rw [hr] at hstep
    obtain rfl := Option.some.inj hstep
    exact hinv.rest {} rfl rfl (.inr (by rw [hr]; rfl))
  | check =>
    rw [hr] at hstep
    dsimp only at hstep
    split at hstep
    · obtain rfl := Option.some.inj hstep
      exact hinv.rest {} rfl rfl (.inr (by rw [hr]; rfl))
    · obtain rfl := Option.some.inj hstep
      exact hinv.rest {} rfl rfl (.inr (by rw [hr]; rfl))
  | polling deadline =>
    rw [hr] at hstep
    dsimp only at hstep
    split at hstep
    · obtain rfl := Option.some.inj hstep
      exact hinv.rest {} rfl rfl (.inr (by rw [hr]; rfl))
    · split at hstep
      · obtain rfl := Option.some.inj hstep
        exact hinv.rest {} rfl rfl (.inr (by rw [hr]; rfl))
      · split at hstep
        · obtain rfl := Option.some.inj hstep
          exact hinv.rest {} rfl rfl (.inr (by rw [hr]; rfl))
        · nomatch hstep
  | receiving =>
    rw [hr] at hstep
    dsimp only at hstep
    split at hstep
    · obtain rfl := Option.some.inj hstep
      exact hinv.rest {} rfl rfl (.inr (by rw [hr]; rfl))
    · split at hstep
      · nomatch hstep
      · obtain rfl := Option.some.inj hstep
        exact hinv.rest {} rfl rfl (.inr (by rw [hr]; rfl))
  | holding buf =>
    have halive : h.responder.gone = false := by
      rw [hr]
      rfl
    rw [hr] at hstep
    dsimp only at hstep
    split at hstep
    · obtain rfl := Option.some.inj hstep
      exact hinv.rest {} rfl rfl (.inr halive)
    · obtain rfl := Option.some.inj hstep
      exact hinv.concat rfl rfl rfl rfl rfl rfl rfl rfl (.inr halive) nofun rfl nofun rfl
        (fun h => ⟨h, nofun⟩) (fun h => ⟨h, rfl⟩) (orderly_other nofun fun _ => ⟨nofun, nofun⟩)
    · obtain rfl := Option.some.inj hstep
      exact hinv.rest {} rfl rfl (.inr halive)
  | replying targetIp targetHw =>
    have halive : h.responder.gone = false := by
      rw [hr]
      rfl
    rw [hr] at hstep
    dsimp only at hstep
    split at hstep
    · obtain rfl := Option.some.inj hstep
      exact hinv.rest {} rfl rfl (.inr halive)
    · obtain rfl := Option.some.inj hstep
      exact hinv.concat rfl rfl rfl rfl rfl rfl rfl rfl (.inr halive) nofun rfl nofun rfl
        (fun h => ⟨h, nofun⟩) (fun h => ⟨h, rfl⟩) (orderly_claimed (.inr rfl) (hclaims halive))

/-! ## Runs -/

theorem Inv.step (hinv : Inv params h) {action : HostAction}
    (hstep : h.step params dutMac action = some h') : Inv params h' := by
  cases action with
  | work => exact hinv.workStep hstep
  | pick x y =>
    obtain ⟨s, hcore, rfl⟩ := Option.map_eq_some_iff.1 hstep
    exact hinv.pick hcore
  | interval ms =>
    obtain ⟨s, hcore, rfl⟩ := Option.map_eq_some_iff.1 hstep
    exact hinv.interval hcore
  | listen ok => exact hinv.listenStep hstep
  | respond ok => exact hinv.respondStep hstep
  | tick ms =>
    obtain rfl := Option.some.inj hstep
    exact hinv.goto { now := Nat.le_add_right _ _ } hinv.duty hinv.place hinv.rate hinv.responder
  | deliver frame =>
    obtain ⟨s, hcore, rfl⟩ := Option.map_eq_some_iff.1 hstep
    unfold State.deliver at hcore
    split at hcore
    · obtain rfl := Option.some.inj hcore
      exact hinv.goto {} hinv.duty hinv.place hinv.rate hinv.responder
    · nomatch hcore
  | deliverResponder frame =>
    rw [Host.step, Host.deliverResponder] at hstep
    split at hstep
    · obtain rfl := Option.some.inj hstep
      exact hinv.goto {} hinv.duty hinv.place hinv.rate hinv.responder
    · nomatch hstep
  | abort =>
    obtain rfl := Option.some.inj hstep
    exact hinv.goto {} hinv.duty hinv.place hinv.rate hinv.responder

theorem Started.inv (hstart : Started h) : Inv params h := by
  refine ⟨?_, ?_, ?_, .inl ?_, ?_⟩
  · rw [hstart.duty]
    trivial
  · rw [hstart.worker]
    trivial
  · rw [hstart.worker]
    trivial
  · rw [hstart.responder]
    rfl
  · rw [hstart.log]
    exact Trace.holds_nil

theorem Inv.run {actions : List HostAction} (hinv : Inv params h)
    (hrun : h.run params dutMac actions = some h') : Inv params h' := by
  induction actions generalizing h with
  | nil =>
    obtain rfl := Option.some.inj hrun
    exact hinv
  | cons action actions ih =>
    rw [Host.run, List.foldlM_cons] at hrun
    obtain ⟨h₁, hstep, hrest⟩ := Option.bind_eq_some_iff.1 hrun
    exact ih (hinv.step hstep) hrest

end Host

/-- **The log of every run is orderly.** In every run from `start`, under every interleaving of the worker,
its listener and the responder with time, frames and `abort`. -/
theorem log_orderly (params : Params) (dutMac : List UInt8) (h₀ h : Host) (actions : List HostAction)
    (hstart : h₀.Started) (hrun : h₀.run params dutMac actions = some h) :
    Trace.Holds (Orderly params) h.log :=
  (hstart.inv.run hrun).log

/-- 169.254.7.9 is picked, probed for three times and committed; the responder is started. -/
def claimAddress : List HostAction :=
  [.work, .tick 200, .work, .work, .work, .pick 7 9, .listen true, .listen true, .listen true, .tick 200,
    .work, .work, .work, .interval 200, .tick 200, .work, .work, .work, .work, .interval 200, .tick 200,
    .work, .work, .work, .work, .tick 200, .work, .work, .listen true, .listen true, .listen true, .work,
    .work, .work, .work, .work, .respond true, .respond true, .respond true, .work]

theorem log_orderly_announce :
    ∃ h, Host.run {} [2, 0, 0, 0, 0, 1] {} (claimAddress ++ [.work, .work]) = some h ∧
      (⟨1000, .announce (State.llAddress 7 9)⟩ : Entry) ∈ h.log ∧ Trace.Holds (Orderly {}) h.log := by
  refine ⟨_, rfl, by decide, ?_⟩
  exact log_orderly {} [2, 0, 0, 0, 0, 1] {} _ (claimAddress ++ [.work, .work]) ⟨rfl, rfl, rfl, rfl, rfl⟩ rfl

end Tc8Harness.Dut.Linklocal
