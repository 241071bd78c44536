import Tc8Harness.Dut.LinklocalHistory

/-!
# The end of a link-local claim

When an address is no longer defended once the responder has processed a conflict with it. The responder
raises `cease_requested_` and goes on reading its socket; only the worker looks at the flag, before each
Announce and while it idles. A Request that is queued behind the conflicting ARP is therefore still
answered, and an Announce that the worker has decided to send still goes out. `Heeded` asks of the
responder's steps that neither is the case.
-/

namespace Tc8Harness.Dut.Linklocal

/-- What an entry says of the claim to an address. -/
def standing (a : UInt32) (e : Entry) : Option Bool :=
  match e.event with
  | .committed b => if b = a then some true else none
  | .challenged b => if b = a then some false else none
  | _ => none

/-- No Announce and no Reply has an address that was challenged after it was committed last. -/
def Undefended (past : List Entry) (e : Entry) : Prop :=
  ∀ a, e.event = .announce a ∨ e.event = .reply a → Trace.last (standing a) past ≠ some false

/-- When the responder finds a Request for the address, no conflict has been processed; when it finds a
conflict, the worker has no Announce on its way. -/
def Heeded (dutMac : List UInt8) (h : Host) : HostAction → Prop
  | .respond _ =>
    match h.responder with
    | .holding buf =>
      match hear dutMac h.committedAddress buf with
      | .nothing => True
      | .challenge => h.duty ≠ .sending
      | .request _ _ => h.ceaseRequested = false
    | _ => True
  | _ => True

instance (dutMac : List UInt8) (h : Host) (action : HostAction) : Decidable (Heeded dutMac h action) := by
  unfold Heeded
  split
  · split
    · split <;> infer_instance
    · infer_instance
  · infer_instance

/-- Every step of the run meets the condition in the state it is taken in. -/
def AllHeeded (params : Params) (dutMac : List UInt8) : Host → List HostAction → Prop
  | _, [] => True
  | h, action :: actions => Heeded dutMac h action ∧
    ∀ h' ∈ h.step params dutMac action, AllHeeded params dutMac h' actions

instance decidableAllHeeded (params : Params) (dutMac : List UInt8) :
    (h : Host) → (actions : List HostAction) → Decidable (AllHeeded params dutMac h actions)
  | _, [] => isTrue trivial
  | h, action :: actions =>
    have : DecidablePred fun h' => AllHeeded params dutMac h' actions := fun h' =>
      decidableAllHeeded params dutMac h' actions
    inferInstanceAs (Decidable (Heeded dutMac h action ∧
      ∀ h' ∈ h.step params dutMac action, AllHeeded params dutMac h' actions))

namespace Host

variable {params : Params} {dutMac : List UInt8} {h h' : Host} {s : State} {e : Entry}

/-- While no conflict is flagged, the address stands; and nothing is on its way with one flagged. -/
structure Calm (h : Host) : Prop where
  sending : h.duty = .sending → h.ceaseRequested = false
  replying : ∀ ip hw, h.responder = .replying ip hw → h.ceaseRequested = false
  ceased : h.worker = .ceased → h.ceaseRequested = true
  standing : h.ceaseRequested = false → Trace.last (standing h.committedAddress) h.log ≠ some false
  log : Trace.Holds Undefended h.log

/-- A step that leaves the flag and the address, and sends nothing. -/
theorem Calm.keep (hcalm : Calm h) (hcease : h'.ceaseRequested = h.ceaseRequested)
    (hcommitted : h'.committedAddress = h.committedAddress)
    (hsending : h'.duty = .sending → h.duty = .sending ∨ h.ceaseRequested = false)
    (hreplying : ∀ ip hw, h'.responder = .replying ip hw →
      h.responder = .replying ip hw ∨ h.ceaseRequested = false)
    (hceased : h'.worker = .ceased → h.worker = .ceased ∨ h.ceaseRequested = true)
    (hlog : h'.log = h.log ∨ ∃ e, h'.log = h.log ++ [e] ∧
      Trace.last (Linklocal.standing h.committedAddress) h'.log =
        Trace.last (Linklocal.standing h.committedAddress) h.log ∧ Undefended h.log e) :
    Calm h' := by
  have hlast : Trace.last (Linklocal.standing h.committedAddress) h'.log =
      Trace.last (Linklocal.standing h.committedAddress) h.log := by
    rcases hlog with hlog | ⟨e, -, hlast, -⟩
    · rw [hlog]
    · exact hlast
  refine ⟨fun hs => ?_, fun ip hw hr => ?_, fun hw => ?_, fun hflag => ?_, ?_⟩
  · rw [hcease]
    exact (hsending hs).elim hcalm.sending id
  · rw [hcease]
    exact (hreplying ip hw hr).elim (hcalm.replying ip hw) id
  · rw [hcease]
    exact (hceased hw).elim hcalm.ceased id
  · rw [hcommitted, hlast]
    exact hcalm.standing (hcease.symm.trans hflag)
  · rcases hlog with hlog | ⟨e, hlog, -, hundefended⟩
    · rw [hlog]
      exact hcalm.log
    · rw [hlog]
      exact hcalm.log.concat hundefended

/-- An entry that is neither sent nor about the standing of an address. -/
theorem logged_other (hlog : h'.log = h.log ++ [e]) (hnone : ∀ a, Linklocal.standing a e = none)
    (hsent : ∀ a, e.event ≠ .announce a ∧ e.event ≠ .reply a) :
    h'.log = h.log ∨ ∃ e, h'.log = h.log ++ [e] ∧
      Trace.last (Linklocal.standing h.committedAddress) h'.log =
        Trace.last (Linklocal.standing h.committedAddress) h.log ∧ Undefended h.log e := by
  refine .inr ⟨e, hlog, ?_, fun a ha => ?_⟩
  · rw [hlog]
    exact Trace.last_concat_none (hnone _)
  · exact ha.elim (fun ha => ((hsent a).1 ha).elim) fun ha => ((hsent a).2 ha).elim

theorem workerStep_cease (hcommit : ∀ waitEnd, s.worker ≠ .commit waitEnd) (hceased : s.worker ≠ .ceased)
    {s' : State} (hstep : s.workerStep params = some s') :
    s'.ceaseRequested = s.ceaseRequested ∧ s'.committedAddress = s.committedAddress ∧
      (s'.worker = .ceased → s.ceaseRequested = true) := by
  have hjoined : ∀ next, (s.joined next).ceaseRequested = s.ceaseRequested ∧
      (s.joined next).committedAddress = s.committedAddress ∧ (s.joined next).worker ≠ .ceased := by
    intro next
    cases next <;> exact ⟨rfl, rfl, nofun⟩
  grind [State.workerStep, State.wake, State.countConflict]

/-- A step of `runLoop` that neither commits an address nor releases it. -/
theorem Calm.moved (hcalm : Calm h) (hduty : h.duty = .none)
    (hcommit : ∀ waitEnd, h.worker ≠ .commit waitEnd) (hceased : h.worker ≠ .ceased)
    (hstep : h.toState.workerStep params = some s) : Calm (h.moved s) := by
  obtain ⟨hcease, hcommitted, hends⟩ := workerStep_cease hcommit hceased hstep
  refine hcalm.keep hcease hcommitted (fun hs => ?_) (fun _ _ hr => .inl hr) (fun hw => .inr (hends hw)) ?_
  · have hnone : h.duty = .sending := hs
    rw [hduty] at hnone
    nomatch hnone
  · cases hevent : workEvent h.toState with
    | none => exact .inl (by rw [moved_quiet hevent])
    | some event =>
      have hother : ∀ a, Linklocal.standing a ⟨h.now, event⟩ = none ∧ event ≠ .announce a ∧
          event ≠ .reply a := by
        intro a
        unfold workEvent at hevent
        grind [Linklocal.standing]
      refine logged_other (e := ⟨h.now, event⟩) (by rw [moved_event hevent]) (fun a => (hother a).1)
        fun a => (hother a).2

/-- A committed address stands. -/
theorem Calm.commit (hcalm : Calm h) {waitEnd : Nat} (hw : h.worker = .commit waitEnd)
    (hstep : h.toState.workerStep params = some s) :
    Calm { h.moved s with stopResponder := true, duty := .replacing } := by
  rw [moved_event (by rw [workEvent, hw])]
  rw [State.workerStep, hw] at hstep
  obtain rfl := Option.some.inj hstep
  refine ⟨(by simp), fun _ _ _ => rfl, (by simp), fun _ => ?_, hcalm.log.concat ?_⟩
  · have hstands : Linklocal.standing h.tentativeLl ⟨h.now, .committed h.tentativeLl⟩ = some true :=
      if_pos rfl
    dsimp only
    rw [Trace.last_concat_some hstands]
    simp
  · intro a ha
    rcases ha with ha | ha <;> cases ha

/-- The address is released under the flag. -/
theorem Calm.release (hcalm : Calm h) (hw : h.worker = .ceased)
    (hstep : h.toState.workerStep params = some s) :
    Calm { h.moved s with responder := .absent, duty := .none } := by
  have hcease := hcalm.ceased hw
  rw [moved_quiet (by rw [workEvent, hw])]
  rw [State.workerStep, hw] at hstep
  obtain rfl := Option.some.inj hstep
  refine ⟨(by simp), (by simp), (by simp), fun hflag => ?_, hcalm.log⟩
  have hraised : h.ceaseRequested = false := hflag
  rw [hcease] at hraised
  cases hraised

theorem Calm.announced (hcalm : Calm h) (hinv : Inv params h) {i : Nat} (hw : h.worker = .announce i)
    (hduty : h.duty = .sending) : Calm (h.announced params i) := by
  have hplace := hinv.place
  rw [hw] at hplace
  refine hcalm.keep rfl rfl nofun (fun _ _ hr => .inl hr) (fun hw' => ?_) (.inr ⟨_, rfl, ?_, ?_⟩)
  · have hafter : (h.announced params i).worker ≠ .ceased := by
      unfold Host.announced
      dsimp only
      split <;> nofun
    exact (hafter hw').elim
  · exact Trace.last_concat_none rfl
  · intro a ha
    have haddress : h.committedAddress = a := by
      rcases ha with ha | ha
      · exact hplace.1.symm.trans (Event.announce.inj ha)
      · nomatch ha
    rw [← haddress]
    exact hcalm.standing (hcalm.sending hduty)

theorem Calm.workStep (hcalm : Calm h) (hinv : Inv params h) (hstep : h.workStep params = some h') :
    Calm h' := by
  have hfits := hinv.duty
  unfold Host.workStep at hstep
  cases hduty : h.duty with
  | replacing =>
    rw [hduty] at hstep
    dsimp only at hstep
    split at hstep
    · obtain rfl := Option.some.inj hstep
      exact hcalm.keep rfl rfl nofun nofun .inl (.inl rfl)
    · nomatch hstep
  | starting deadline =>
    rw [hduty] at hstep
    dsimp only at hstep
    split at hstep
    · obtain rfl := Option.some.inj hstep
      exact hcalm.keep rfl rfl nofun (fun _ _ hr => .inl hr) .inl (.inl rfl)
    · nomatch hstep
  | sending =>
    rw [hduty] at hstep
    dsimp only at hstep
    split at hstep
    · next i hw =>
      obtain rfl := Option.some.inj hstep
      exact hcalm.announced hinv hw hduty
    · nomatch hstep
  | stopping =>
    rw [hduty] at hstep hfits
    dsimp only at hstep
    split at hstep
    · obtain ⟨s, hcore, rfl⟩ := Option.map_eq_some_iff.1 hstep
      exact hcalm.release hfits hcore
    · nomatch hstep
  | none =>
    rw [hduty] at hstep
    dsimp only at hstep
    split at hstep
    · next waitEnd hw =>
      obtain ⟨s, hcore, rfl⟩ := Option.map_eq_some_iff.1 hstep
      exact hcalm.commit hw hcore
    · next i hw =>
      split at hstep
      · obtain ⟨s, hcore, rfl⟩ := Option.map_eq_some_iff.1 hstep
        exact hcalm.moved hduty (by rw [hw]; nofun) (by rw [hw]; nofun) hcore
      · next hcease =>
        obtain rfl := Option.some.inj hstep
        exact hcalm.keep rfl rfl (fun _ => .inr (Bool.eq_false_iff.2 hcease)) (fun _ _ hr => .inl hr) .inl
          (.inl rfl)
    · next deadline hw =>
      obtain ⟨s, hcore, rfl⟩ := Option.map_eq_some_iff.1 hstep
      have hmoved := hcalm.moved hduty (by rw [hw]; nofun) (by rw [hw]; nofun) hcore
      exact hmoved.keep rfl rfl .inl (fun _ _ hr => .inl hr) .inl (.inl rfl)
    · obtain rfl := Option.some.inj hstep
      exact hcalm.keep rfl rfl nofun (fun _ _ hr => .inl hr) .inl (.inl rfl)
    · next hcommit _ _ hceased =>
      obtain ⟨s, hcore, rfl⟩ := Option.map_eq_some_iff.1 hstep
      exact hcalm.moved hduty hcommit hceased hcore

/-- The responder goes on, with nothing to answer. -/
theorem Calm.responds (hcalm : Calm h) (hduty : h'.duty = h.duty) (hstate : h'.toState = h.toState)
    (hlog : h'.log = h.log) (hr : ∀ ip hw, h'.responder ≠ .replying ip hw) : Calm h' := by
  refine hcalm.keep (by rw [hstate]) (by rw [hstate]) (fun hs => .inl (hduty.symm.trans hs))
    (fun ip hw hrep => (hr ip hw hrep).elim) (fun hw => .inl ?_) (.inl hlog)
  rw [← hstate]
  exact hw

theorem Calm.respondStep (hcalm : Calm h) {ok : Bool} (hheeded : Heeded dutMac h (.respond ok))
    (hstep : h.respondStep dutMac ok = some h') : Calm h' := by
  unfold Host.respondStep at hstep
  cases hr : h.responder with
  | absent | finished =>
    rw [hr] at hstep
    nomatch hstep
  | bound | closing =>
    rw [hr] at hstep
    obtain rfl := Option.some.inj hstep
    exact hcalm.responds rfl rfl rfl nofun
  | opening | opened =>
    rw [hr] at hstep
    obtain rfl := Option.some.inj hstep
    refine hcalm.responds rfl rfl rfl ?_
    dsimp only
    split <;> nofun
  | check =>
    rw [hr] at hstep
    dsimp only at hstep
    split at hstep
    · obtain rfl := Option.some.inj hstep
      exact hcalm.responds rfl rfl rfl nofun
    · obtain rfl := Option.some.inj hstep
      exact hcalm.responds rfl rfl rfl nofun
  | polling deadline =>
    rw [hr] at hstep
    dsimp only at hstep
    split at hstep
    · obtain rfl := Option.some.inj hstep
      exact hcalm.responds rfl rfl rfl nofun
    · split at hstep
      · obtain rfl := Option.some.inj hstep
        exact hcalm.responds rfl rfl rfl nofun
      · split at hstep
        · obtain rfl := Option.some.inj hstep
          exact hcalm.responds rfl rfl rfl nofun
        · nomatch hstep
  | receiving =>
    rw [hr] at hstep
    dsimp only at hstep
    split at hstep
    · obtain rfl := Option.some.inj hstep
      exact hcalm.responds rfl rfl rfl nofun
    · split at hstep
      · nomatch hstep
      · obtain rfl := Option.some.inj hstep
        exact hcalm.responds rfl rfl rfl nofun
  | holding buf =>
    rw [hr] at hstep
    rw [Heeded, hr] at hheeded
    dsimp only at hstep hheeded
    cases hheard : hear dutMac h.committedAddress buf with
    | nothing =>
      rw [hheard] at hstep
      obtain rfl := Option.some.inj hstep
      exact hcalm.responds rfl rfl rfl nofun
    | challenge =>
      rw [hheard] at hstep hheeded
      obtain rfl := Option.some.inj hstep
      refine ⟨fun hs => (hheeded hs).elim, nofun, fun _ => rfl, nofun, hcalm.log.concat ?_⟩
      intro a ha
      rcases ha with ha | ha <;> nomatch ha
    | request senderIp senderHw =>
      rw [hheard] at hstep hheeded
      obtain rfl := Option.some.inj hstep
      exact hcalm.keep rfl rfl .inl (fun _ _ _ => .inr hheeded) .inl (.inl rfl)
  | replying targetIp targetHw =>
    have hclear := hcalm.replying targetIp targetHw hr
    rw [hr] at hstep
    dsimp only at hstep
    split at hstep
    · obtain rfl := Option.some.inj hstep
      exact hcalm.responds rfl rfl rfl nofun
    · obtain rfl := Option.some.inj hstep
      refine hcalm.keep rfl rfl .inl nofun .inl (.inr ⟨_, rfl, Trace.last_concat_none rfl, ?_⟩)
      intro a ha
      have haddress : h.committedAddress = a := by
        rcases ha with ha | ha
        · nomatch ha
        · exact Event.reply.inj ha
      rw [← haddress]
      exact hcalm.standing hclear

theorem Calm.listenStep (hcalm : Calm h) {ok : Bool} (hstep : h.listenStep dutMac ok = some h') :
    Calm h' := by
  unfold Host.listenStep at hstep
  obtain ⟨s, hcore, rfl⟩ := Option.map_eq_some_iff.1 hstep
  obtain ⟨hworker, -, -, hcommitted, -⟩ := listenerStep_rest hcore
  have hcease : s.ceaseRequested = h.ceaseRequested := by grind [State.listenerStep]
  have hceased : s.worker = .ceased → h.worker = .ceased ∨ h.ceaseRequested = true :=
    fun hw => .inl (hworker.symm.trans hw)
  dsimp only
  split
  · split
    · exact hcalm.keep hcease hcommitted .inl (fun _ _ hr => .inl hr) hceased
        (logged_other rfl (fun _ => rfl) fun _ => ⟨(by simp), (by simp)⟩)
    · exact hcalm.keep hcease hcommitted .inl (fun _ _ hr => .inl hr) hceased (.inl rfl)
  · exact hcalm.keep hcease hcommitted .inl (fun _ _ hr => .inl hr) hceased (.inl rfl)

/-! ## Runs -/

theorem Calm.step (hcalm : Calm h) (hinv : Inv params h) {action : HostAction}
    (hheeded : Heeded dutMac h action) (hstep : h.step params dutMac action = some h') : Calm h' := by
  cases action with
  | work => exact hcalm.workStep hinv hstep
  | pick x y =>
    obtain ⟨s, hcore, rfl⟩ := Option.map_eq_some_iff.1 hstep
    unfold State.pickStep at hcore
    split at hcore
    · obtain rfl := Option.some.inj hcore
      exact hcalm.keep rfl rfl .inl (fun _ _ hr => .inl hr) (by simp)
        (logged_other rfl (fun _ => rfl) fun _ => ⟨(by simp), (by simp)⟩)
    · cases hcore
  | interval ms =>
    obtain ⟨s, hcore, rfl⟩ := Option.map_eq_some_iff.1 hstep
    unfold State.intervalStep at hcore
    split at hcore
    · split at hcore
      · obtain rfl := Option.some.inj hcore
        exact hcalm.keep rfl rfl .inl (fun _ _ hr => .inl hr) (by simp) (.inl rfl)
      · cases hcore
    · cases hcore
  | listen ok => exact hcalm.listenStep hstep
  | respond ok => exact hcalm.respondStep hheeded hstep
  | tick ms | abort =>
    obtain rfl := Option.some.inj hstep
    exact hcalm.keep rfl rfl .inl (fun _ _ hr => .inl hr) .inl (.inl rfl)
  | deliver frame =>
    obtain ⟨s, hcore, rfl⟩ := Option.map_eq_some_iff.1 hstep
    unfold State.deliver at hcore
    split at hcore
    · obtain rfl := Option.some.inj hcore
      exact hcalm.keep rfl rfl .inl (fun _ _ hr => .inl hr) .inl (.inl rfl)
    · cases hcore
  | deliverResponder frame =>
    rw [Host.step, Host.deliverResponder] at hstep
    split at hstep
    · obtain rfl := Option.some.inj hstep
      exact hcalm.keep rfl rfl .inl (fun _ _ hr => .inl hr) .inl (.inl rfl)
    · cases hstep

theorem Started.calm (hstart : Started h) : Calm h := by
  refine ⟨?_, ?_, ?_, fun _ => ?_, ?_⟩
  · rw [hstart.duty]
    nofun
  · rw [hstart.responder]
    nofun
  · rw [hstart.worker]
    nofun
  · rw [hstart.log]
    nofun
  · rw [hstart.log]
    exact Trace.holds_nil

theorem Calm.run {actions : List HostAction} (hcalm : Calm h) (hinv : Inv params h)
    (hheeded : AllHeeded params dutMac h actions) (hrun : h.run params dutMac actions = some h') :
    Calm h' := by
  induction actions generalizing h with
  | nil =>
    obtain rfl := Option.some.inj hrun
    exact hcalm
  | cons action actions ih =>
    rw [Host.run, List.foldlM_cons] at hrun
    obtain ⟨h₁, hstep, hrest⟩ := Option.bind_eq_some_iff.1 hrun
    exact ih (hcalm.step hinv hheeded.1 hstep) (hinv.step hstep) (hheeded.2 h₁ hstep) hrest

end Host

/-- **A challenged address is not defended, where the flag is heeded.** In every run from `start`, under
every interleaving, in which the responder finds no Request for the address after a conflict with it, and no
conflict while an Announce is on its way: no Reply and no Announce has an address that was challenged since
it was committed last. -/
theorem challenged_undefended (params : Params) (dutMac : List UInt8) (h₀ h : Host)
    (actions : List HostAction) (hstart : h₀.Started) (hrun : h₀.run params dutMac actions = some h)
    (hheeded : AllHeeded params dutMac h₀ actions) : Trace.Holds Undefended h.log :=
  (hstart.calm.run hstart.inv hheeded hrun).log

/-- The responder reads one frame and deals with it. -/
def readOne : List HostAction := [.respond true, .respond true, .respond true, .respond true]

/-- An ARP Request with the given last bytes of the sender's MAC, its address and the target's. -/
def arpRequest (mac senderX senderY targetX targetY : UInt8) : List UInt8 :=
  List.replicate 12 0xFF ++ [0x08, 0x06, 0, 1, 8, 0, 6, 4, 0, 1, 0x02, 0, 0, 0, 0, mac] ++
    [0xA9, 0xFE, senderX, senderY] ++ List.replicate 6 0 ++ [0xA9, 0xFE, targetX, targetY]

/-- A Request, then a conflict, each read before the next comes. -/
def answeredThenChallenged : List HostAction :=
  claimAddress ++ [.work, .work, .deliverResponder (arpRequest 3 1 1 7 9)] ++ readOne ++
    [.respond true, .deliverResponder (arpRequest 2 7 9 7 9)] ++ readOne

theorem challenged_undefended_in_order :
    ∃ h, Host.run {} [2, 0, 0, 0, 0, 1] {} answeredThenChallenged = some h ∧
      (⟨1000, .reply (State.llAddress 7 9)⟩ : Entry) ∈ h.log ∧
      (⟨1000, .challenged (State.llAddress 7 9)⟩ : Entry) ∈ h.log ∧
      Trace.Holds Undefended h.log := by
  have hheeded : AllHeeded {} [2, 0, 0, 0, 0, 1] {} answeredThenChallenged := by decide +kernel
  refine ⟨_, rfl, by decide +kernel, by decide +kernel, ?_⟩
  exact challenged_undefended {} [2, 0, 0, 0, 0, 1] {} _ answeredThenChallenged ⟨rfl, rfl, rfl, rfl, rfl⟩ rfl
    hheeded

/-- A conflict with a Request queued behind it. -/
def challengedThenAsked : List HostAction :=
  claimAddress ++ [.work, .work, .deliverResponder (arpRequest 2 7 9 7 9),
    .deliverResponder (arpRequest 3 1 1 7 9)] ++ readOne ++ readOne ++ [.respond true]

/-- What that run has in its log before the Reply. -/
def challengedLog : List Entry :=
  [⟨200, .attempt⟩, ⟨200, .picked (State.llAddress 7 9)⟩, ⟨400, .probe (State.llAddress 7 9)⟩,
    ⟨600, .probe (State.llAddress 7 9)⟩, ⟨800, .probe (State.llAddress 7 9)⟩,
    ⟨1000, .committed (State.llAddress 7 9)⟩, ⟨1000, .announce (State.llAddress 7 9)⟩,
    ⟨1000, .challenged (State.llAddress 7 9)⟩]

/-- The Request is answered although the address is challenged. -/
theorem challenged_answered :
    Host.Started {} ∧ ∃ h, Host.run {} [2, 0, 0, 0, 0, 1] {} challengedThenAsked = some h ∧
      ¬ Trace.Holds Undefended h.log := by
  refine ⟨⟨rfl, rfl, rfl, rfl, rfl⟩, _, rfl, fun hholds => ?_⟩
  refine hholds challengedLog ⟨1000, .reply (State.llAddress 7 9)⟩ [] ?_ (State.llAddress 7 9) (.inr rfl) ?_
  · decide +kernel
  · decide +kernel

end Tc8Harness.Dut.Linklocal
