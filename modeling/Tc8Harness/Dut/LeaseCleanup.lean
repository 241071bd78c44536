import Tc8Harness.Dut.Acquisition
import Tc8Harness.Dut.LeaseAnswers

/-!
# The end of a lease

`Dhcpv4Client` with the thread that runs it: `start` and `abort` of `dut/dut_service/dhcpv4_client.cpp`
around the worker. The lease and the router are set in one place and cleared in three: after a DECLINE,
after the phase machine has returned to INIT, and in `abort`. `lease_cleanup` says that between them they
leave nothing behind. The worker clears a lease in a step of its own, after the one that ended it; until
then the thread that answers the tester still reads the old lease.
-/

namespace Tc8Harness.Dut

open Observe

/-! ## The client and its worker -/

structure Service where
  client : Client := { point := .done }
  params : Params := {}
  /-- There is a worker that has not been joined. -/
  joinable : Bool := false
  deriving DecidableEq, Repr

inductive Command where
  | start (params : Params)
  | abort
  /-- The worker takes a step. -/
  | worker (a : Answers)

/-- What ends a lease. -/
inductive LeaseEnd where
  | decline
  | nak
  | expiry
  | abort
  deriving DecidableEq, Repr

namespace Service

variable (sender : Sender) (s : Service)

/-- A join of the worker returns. -/
def joins : Bool := !s.joinable || s.client.point = .done

/-- `abort` and `start` wait for the worker; `start` begins with an `abort`. -/
def step : Command → Service
  | .start params =>
    if s.joins then ⟨s.client.release.goto .init, params, true⟩ else s
  | .abort => if s.joins then { s with client := s.client.release, joinable := false } else s
  | .worker a => if s.joinable then { s with client := s.client.step s.params sender a } else s

def run (cmds : List Command) : Service := cmds.foldl (step sender) {}

/-- What a command leaves in the log. -/
def sentBy (cmd : Command) : List Event := (s.step sender cmd).client.log.drop s.client.log.length

end Service

/-- The worker ends the lease in this step: it declines the address, it receives a NAK, or the lease
expires. -/
def Client.ends (params : Params) (sender : Sender) (s : Client) (a : Answers) : Option LeaseEnd :=
  match s.point with
  | .probe _ ack =>
    if (params.probes ∧ a.stopRequested = false) ∧ a.arpSocketOpens ∧
        a.arpFrames.any (arpConflict sender.dutMac ack.yiaddrBe) then some .decline
    else none
  | .phase binding state =>
    if a.stopRequested then none
    else if (state.tick binding a.now).1.expired a.now then some .expiry
    else
      match pollForReply (Client.gate params sender binding.xidBe 0) a.datagrams with
      | none => none
      | some r => if r.msgType = kDhcpNak then some .nak else none
  | _ => none

/-- The ACK that binds in this step. -/
def Client.binds (params : Params) (sender : Sender) (s : Client) (a : Answers) : Option Reply :=
  match s.point with
  | .ackWait xidBe _ _ =>
    if a.stopRequested then none else pollForReply (Client.gate params sender xidBe kDhcpAck) a.datagrams
  | _ => none

namespace Service

variable (sender : Sender) (s : Service)

def ends : Command → Option LeaseEnd
  | .start _ => if s.joins then some .abort else none
  | .abort => if s.joins then some .abort else none
  | .worker a => if s.joinable then s.client.ends s.params sender a else none

def binds : Command → Option Reply
  | .worker a => if s.joinable then s.client.binds s.params sender a else none
  | _ => none

end Service

/-! ## What is to be left behind -/

def routeStep (routes : List UInt32) : Event → List UInt32
  | .routeInstalled gatewayBe => routes ++ [gatewayBe]
  | .routeRemoved gatewayBe => routes.erase gatewayBe
  | _ => routes

/-- The default routes that were installed and not removed. -/
def outstanding (log : List Event) : List UInt32 := log.foldl routeStep []

/-- No lease is shown and no route is left. -/
structure Clean (s : Client) : Prop where
  lease : s.committedLeaseBe = 0
  routes : outstanding s.log = []

/-- The lease was bound by an ACK, and nothing has ended it since. -/
def HeldSince (sender : Sender) (cmds : List Command) (leaseBe : UInt32) : Prop :=
  ∃ before cmd after ack, cmds = before ++ cmd :: after ∧
    (Service.run sender before).binds sender cmd = some ack ∧
    ack.msgType = kDhcpAck ∧ ack.yiaddrBe = leaseBe ∧
    Along (Service.step sender) (fun s c => s.ends sender c = none)
      ((Service.run sender before).step sender cmd) after

/-- The lease ended in the last step the worker took. -/
def JustEnded (sender : Sender) (cmds : List Command) (leaseBe : UInt32) : Prop :=
  ∃ held ending waits cause, cmds = held ++ ending :: waits ∧ HeldSince sender held leaseBe ∧
    (Service.run sender held).ends sender ending = some cause ∧
    Service.run sender cmds = Service.run sender (held ++ [ending])

/-- The next step of the worker clears the lease and sends nothing. -/
def ClearsNext (sender : Sender) (s : Service) : Prop :=
  ∀ a, (s.step sender (.worker a)).client.committedLeaseBe = 0 ∧ s.sentBy sender (.worker a) = [.released]

/-! ## One step -/

/-- Points at which no lease is bound. -/
def Point.unbound : Point → Bool
  | .init | .attempt _ _ | .offerWait _ _ | .ackWait _ _ _ | .unroute _ | .parked => true
  | _ => false

/-- Points between the end of a lease and the next cycle. -/
def Point.ended : Point → Bool
  | .restart | .unroute _ => true
  | _ => false

/-- The default route the client has to remove. -/
def Client.routeBe (s : Client) : UInt32 :=
  match s.point with
  | .unroute toRemove => toRemove
  | _ => s.installedRouterBe

def Event.isRoute : Event → Bool
  | .routeInstalled _ | .routeRemoved _ => true
  | _ => false

def Event.isDiscover : Event → Bool
  | .sent .Discover _ => true
  | _ => false

/-- What a step of the worker does with the lease. -/
inductive LeaseStep (params : Params) (sender : Sender) (a : Answers) (s : Client) : Client → Prop
  | keeps (s' : Client) (evs : List Event) (hends : s.ends params sender a = none)
      (hbinds : s.binds params sender a = none)
      (hlog : s'.log = s.log ++ evs) (hroutes : ∀ ev ∈ evs, ev.isRoute = false)
      (hdiscover : ∀ ev ∈ evs, ev.isDiscover = true → s.point.unbound = true)
      (hlease : s'.committedLeaseBe = s.committedLeaseBe)
      (hrouter : s'.installedRouterBe = s.installedRouterBe)
      (hpoint : s'.point.unbound = true → s.point.unbound = true)
      (hfrom : s.point.ended = false) (hto : s'.point.ended = false) : LeaseStep params sender a s s'
  | binds (ack : Reply) (xidBe : UInt32) (hends : s.ends params sender a = none)
      (hbinds : s.binds params sender a = some ack) (htype : ack.msgType = kDhcpAck)
      (hpoint : s.point.unbound = true) (hfrom : s.point.ended = false) :
      LeaseStep params sender a s ((s.bind a ack).goto (.bound xidBe ack))
  | ends (s' : Client) (evs : List Event) (cause : LeaseEnd) (hends : s.ends params sender a = some cause)
      (hbinds : s.binds params sender a = none)
      (hlog : s'.log = s.log ++ evs) (hroutes : ∀ ev ∈ evs, ev.isRoute = false)
      (hdiscover : ∀ ev ∈ evs, ev.isDiscover = false)
      (hlease : s'.committedLeaseBe = s.committedLeaseBe)
      (hrouter : s'.installedRouterBe = s.installedRouterBe)
      (hfrom : s.point.ended = false) (hto : s'.point = .restart) : LeaseStep params sender a s s'
  | clears (hpoint : s.point = .restart) :
      LeaseStep params sender a s (s.clear.goto (.unroute s.installedRouterBe))
  | unroutes (toRemove : UInt32) (hpoint : s.point = .unroute toRemove) :
      LeaseStep params sender a s ((s.removeRoute toRemove).goto .init)

section Worker

variable {params : Params} {sender : Sender} {a : Answers} {s : Client}

theorem isRoute_sentEvents {spec : DhcpEmitSpec} {ev : Event}
    (h : ev ∈ Client.sentEvents params sender spec) : ev.isRoute = false := by
  obtain ⟨frame, -, rfl⟩ := List.mem_map.mp h
  rfl

theorem isDiscover_sentEvents {spec : DhcpEmitSpec} {ev : Event} (hspec : spec.phase ≠ .Discover)
    (h : ev ∈ Client.sentEvents params sender spec) : ev.isDiscover = false := by
  obtain ⟨frame, -, rfl⟩ := List.mem_map.mp h
  cases hphase : spec.phase with
  | Discover => exact absurd hphase hspec
  | _ => rfl

theorem LeaseStep.goto {point : Point} (hends : s.ends params sender a = none)
    (hbinds : s.binds params sender a = none) (hfrom : s.point.ended = false)
    (hpoint : point.unbound = true → s.point.unbound = true) (hto : point.ended = false) :
    LeaseStep params sender a s (s.goto point) :=
  .keeps _ [] hends hbinds (List.append_nil _).symm (by simp) (by simp) rfl rfl hpoint hfrom hto

theorem LeaseStep.note {point : Point} {evs : List Event} (hends : s.ends params sender a = none)
    (hbinds : s.binds params sender a = none) (hfrom : s.point.ended = false)
    (hroutes : ∀ ev ∈ evs, ev.isRoute = false)
    (hdiscover : ∀ ev ∈ evs, ev.isDiscover = true → s.point.unbound = true)
    (hpoint : point.unbound = true → s.point.unbound = true) (hto : point.ended = false) :
    LeaseStep params sender a s ((s.note evs).goto point) :=
  .keeps _ evs hends hbinds rfl hroutes hdiscover rfl rfl hpoint hfrom hto

theorem leaseStep_attempt {xidBe : UInt32} {attempt : UInt8} (hpoint : s.point = .attempt xidBe attempt) :
    LeaseStep params sender a s (s.attemptStep params sender a xidBe attempt) := by
  have hends : s.ends params sender a = none := by rw [Client.ends, hpoint]
  have hbinds : s.binds params sender a = none := by rw [Client.binds, hpoint]
  have hunbound : s.point.unbound = true := by rw [hpoint]; rfl
  have hfrom : s.point.ended = false := by rw [hpoint]; rfl
  unfold Client.attemptStep
  split
  · exact .goto hends hbinds hfrom (fun _ => hunbound) rfl
  · exact .note hends hbinds hfrom (fun _ => isRoute_sentEvents) (fun _ _ _ => hunbound) (fun _ => hunbound) rfl

theorem leaseStep_offerWait {xidBe : UInt32} {attempt : UInt8}
    (hpoint : s.point = .offerWait xidBe attempt) :
    LeaseStep params sender a s (s.offerWaitStep params sender a xidBe attempt) := by
  have hends : s.ends params sender a = none := by rw [Client.ends, hpoint]
  have hbinds : s.binds params sender a = none := by rw [Client.binds, hpoint]
  have hunbound : s.point.unbound = true := by rw [hpoint]; rfl
  have hfrom : s.point.ended = false := by rw [hpoint]; rfl
  unfold Client.offerWaitStep
  split
  · exact .goto hends hbinds hfrom (fun _ => hunbound) rfl
  next offer _ =>
  dsimp only
  split
  · exact .note hends hbinds hfrom (by simp [Event.isRoute]) (fun _ _ _ => hunbound) (fun _ => hunbound) rfl
  · refine .keeps _ (.offered offer :: Client.sentEvents params sender _) hends hbinds
      (List.append_assoc _ _ _) ?_ (fun _ _ _ => hunbound) rfl rfl (fun _ => hunbound) hfrom rfl
    intro ev hev
    rcases List.mem_cons.mp hev with rfl | hev
    · rfl
    · exact isRoute_sentEvents hev

theorem leaseStep_ackWait {xidBe : UInt32} {attempt : UInt8} {offer : Reply}
    (hpoint : s.point = .ackWait xidBe attempt offer) :
    LeaseStep params sender a s (s.ackWaitStep params sender a xidBe attempt) := by
  have hends : s.ends params sender a = none := by rw [Client.ends, hpoint]
  have hunbound : s.point.unbound = true := by rw [hpoint]; rfl
  have hbinds : s.binds params sender a = if a.stopRequested then none else
      pollForReply (Client.gate params sender xidBe kDhcpAck) a.datagrams := by
    rw [Client.binds, hpoint]
  have hfrom : s.point.ended = false := by rw [hpoint]; rfl
  unfold Client.ackWaitStep
  split
  · next hnone =>
    refine .goto hends ?_ hfrom (fun _ => hunbound) rfl
    rw [hbinds, hnone, ite_self]
  · next ack hack =>
    split
    · next hstop => exact .goto hends (hbinds.trans (if_pos hstop)) hfrom (fun _ => hunbound) rfl
    · next hstop =>
      refine .binds ack xidBe hends ((hbinds.trans (if_neg hstop)).trans hack) ?_ hunbound hfrom
      exact msgType_of_strict rfl (show kDhcpAck ≠ 0 by decide) hack

theorem leaseStep_bound {xidBe : UInt32} {ack : Reply} (hpoint : s.point = .bound xidBe ack) :
    LeaseStep params sender a s (s.boundStep params a xidBe ack) := by
  have hends : s.ends params sender a = none := by rw [Client.ends, hpoint]
  have hbinds : s.binds params sender a = none := by rw [Client.binds, hpoint]
  have hfrom : s.point.ended = false := by rw [hpoint]; rfl
  unfold Client.boundStep
  dsimp only
  split
  · exact .note hends hbinds hfrom (by simp [Event.isRoute]) (by simp [Event.isDiscover]) nofun rfl
  · exact .goto hends hbinds hfrom nofun rfl

theorem leaseStep_arm {xidBe : UInt32} {ack : Reply} (hpoint : s.point = .arm xidBe ack) :
    LeaseStep params sender a s (s.armStep params a xidBe ack) := by
  have hends : s.ends params sender a = none := by rw [Client.ends, hpoint]
  have hbinds : s.binds params sender a = none := by rw [Client.binds, hpoint]
  have hfrom : s.point.ended = false := by rw [hpoint]; rfl
  unfold Client.armStep
  split
  · exact .goto hends hbinds hfrom nofun rfl
  · exact .goto hends hbinds hfrom nofun rfl

theorem leaseStep_probe {xidBe : UInt32} {ack : Reply} (hpoint : s.point = .probe xidBe ack) :
    LeaseStep params sender a s (s.probeStep params sender a xidBe ack) := by
  have hbinds : s.binds params sender a = none := by rw [Client.binds, hpoint]
  have hends : s.ends params sender a =
      if (params.probes ∧ a.stopRequested = false) ∧ a.arpSocketOpens ∧
        a.arpFrames.any (arpConflict sender.dutMac ack.yiaddrBe) then some .decline else none := by
    rw [Client.ends, hpoint]
  have hfrom : s.point.ended = false := by rw [hpoint]; rfl
  unfold Client.probeStep
  by_cases hprobes : params.probes ∧ a.stopRequested = false
  · rw [if_pos hprobes]
    -- The client once it has sent the probe, if it could.
    obtain ⟨probed, hprobed, hquiet⟩ : ∃ probed : List Event,
        (if a.arpSocketOpens then s.note [.arpProbe ack.yiaddrBe] else s) = s.note probed ∧
          ∀ ev ∈ probed, ev.isRoute = false ∧ ev.isDiscover = false := by
      by_cases hopens : a.arpSocketOpens = true
      · exact ⟨_, if_pos hopens, by simp [Event.isRoute, Event.isDiscover]⟩
      · refine ⟨[], ?_, by simp⟩
        rw [if_neg hopens, Client.note, List.append_nil]
    dsimp only
    rw [hprobed]
    split
    · next hconflict =>
      refine .ends _ (probed ++ Client.sentEvents params sender _) .decline
        (hends.trans (if_pos ⟨hprobes, hconflict⟩)) hbinds (List.append_assoc _ _ _) ?_ ?_ rfl rfl hfrom rfl
      · intro ev hev
        rcases List.mem_append.mp hev with hev | hev
        · exact (hquiet ev hev).1
        · exact isRoute_sentEvents hev
      · intro ev hev
        rcases List.mem_append.mp hev with hev | hev
        · exact (hquiet ev hev).2
        · exact isDiscover_sentEvents (by simp [emitDhcpDecline]) hev
    · next hquiets =>
      refine .keeps _ (probed ++ [Event.arpAnnounce ack.yiaddrBe])
        (hends.trans (if_neg fun h => hquiets h.2)) hbinds (List.append_assoc _ _ _) ?_ ?_ rfl rfl nofun
        hfrom rfl
      · intro ev hev
        rcases List.mem_append.mp hev with hev | hev
        · exact (hquiet ev hev).1
        · rw [List.mem_singleton.mp hev]
          rfl
      · intro ev hev hdiscover
        rcases List.mem_append.mp hev with hev | hev
        · rw [(hquiet ev hev).2] at hdiscover
          cases hdiscover
        · rw [List.mem_singleton.mp hev] at hdiscover
          cases hdiscover
  · rw [if_neg hprobes]
    exact .goto (hends.trans (if_neg fun h => hprobes h.1)) hbinds hfrom nofun rfl

/-- The machine returns exactly when the lease ends. -/
theorem isSome_ends_phase (params : Params) (sender : Sender) {binding : Binding} {state : PhaseState}
    (hpoint : s.point = .phase binding state) (hstop : ¬ a.stopRequested = true) :
    (s.ends params sender a).isSome =
      (state.turn binding a.now
        ((pollForReply (Client.gate params sender binding.xidBe 0) a.datagrams).map
          (·, a.rearmed))).1.isNone := by
  simp only [Client.ends, hpoint, if_neg hstop, PhaseState.turn]
  by_cases hexpired : (state.tick binding a.now).1.expired a.now = true
  · rw [if_pos hexpired, if_pos hexpired]
    rfl
  rw [if_neg hexpired, if_neg hexpired]
  cases pollForReply (Client.gate params sender binding.xidBe 0) a.datagrams with
  | none => rfl
  | some r =>
    dsimp only [Option.map_some]
    unfold PhaseState.onReply
    by_cases hnak : r.msgType = kDhcpNak
    · rw [if_pos hnak, if_pos hnak]
      rfl
    · rw [if_neg hnak, if_neg hnak]
      split <;> rfl

theorem leaseStep_phase {binding : Binding} {state : PhaseState} (hpoint : s.point = .phase binding state) :
    LeaseStep params sender a s (s.phaseStep params sender a binding state) := by
  have hbinds : s.binds params sender a = none := by rw [Client.binds, hpoint]
  have hfrom : s.point.ended = false := by rw [hpoint]; rfl
  unfold Client.phaseStep
  by_cases hstop : a.stopRequested = true
  · rw [if_pos hstop]
    refine .goto ?_ hbinds hfrom nofun rfl
    rw [Client.ends, hpoint]
    exact if_pos hstop
  rw [if_neg hstop]
  dsimp only
  have hcause := isSome_ends_phase params sender hpoint hstop
  generalize (pollForReply (Client.gate params sender binding.xidBe 0) a.datagrams).map
    (·, a.rearmed) = reply at hcause ⊢
  have hmessages : ∀ ev ∈ (state.turn binding a.now reply).2.flatMap (Client.sentEvents params sender),
      ev.isRoute = false ∧ ev.isDiscover = false := by
    intro ev hev
    obtain ⟨m, hm, hsent⟩ := List.mem_flatMap.mp hev
    refine ⟨isRoute_sentEvents hsent, isDiscover_sentEvents ?_ hsent⟩
    rcases PhaseState.turn_messages hm with rfl | rfl
    · exact nofun
    · exact nofun
  cases hnext : (state.turn binding a.now reply).1 with
  | none =>
    rw [hnext] at hcause
    obtain ⟨cause, hends⟩ := Option.isSome_iff_exists.mp hcause
    exact .ends _ _ cause hends hbinds rfl (fun ev hev => (hmessages ev hev).1)
      (fun ev hev => (hmessages ev hev).2) rfl rfl hfrom rfl
  | some state' =>
    rw [hnext] at hcause
    have hends : s.ends params sender a = none := Option.not_isSome_iff_eq_none.mp (by simp [hcause])
    have hrenewals : ∀ ev ∈ Client.renewals reply, ev.isRoute = false ∧ ev.isDiscover = false := by
      intro ev hev
      unfold Client.renewals at hev
      split at hev
      · split at hev
        · rw [List.mem_singleton.mp hev]
          exact ⟨rfl, rfl⟩
        · cases hev
      · cases hev
    have hall : ∀ ev ∈ (state.turn binding a.now reply).2.flatMap (Client.sentEvents params sender) ++
        Client.renewals reply, ev.isRoute = false ∧ ev.isDiscover = false := by
      intro ev hev
      rcases List.mem_append.mp hev with hev | hev
      · exact hmessages ev hev
      · exact hrenewals ev hev
    refine .keeps _ _ hends hbinds (List.append_assoc _ _ _) (fun ev hev => (hall ev hev).1) ?_ rfl rfl nofun
      hfrom rfl
    intro ev hev hdiscover
    rw [(hall ev hev).2] at hdiscover
    cases hdiscover

/-- **Step lemma**: what the worker does with the lease, from any point. -/
theorem leaseStep_step (params : Params) (sender : Sender) (a : Answers) (s : Client) :
    LeaseStep params sender a s (s.step params sender a) := by
  unfold Client.step
  rcases hpoint : s.point with _ | ⟨x, n⟩ | ⟨x, n⟩ | ⟨x, n, o⟩ | ⟨x, r⟩ | ⟨x, r⟩ | ⟨x, r⟩ | ⟨b, st⟩ |
    _ | ⟨g⟩ | _ | _ | _
  case attempt => exact leaseStep_attempt hpoint
  case offerWait => exact leaseStep_offerWait hpoint
  case ackWait => exact leaseStep_ackWait hpoint
  case bound => exact leaseStep_bound hpoint
  case probe => exact leaseStep_probe hpoint
  case arm => exact leaseStep_arm hpoint
  case phase => exact leaseStep_phase hpoint
  case restart => exact .clears hpoint
  case unroute => exact .unroutes g hpoint
  -- The four points that are left only move on.
  all_goals
    have hends : s.ends params sender a = none := by rw [Client.ends, hpoint]
    have hbinds : s.binds params sender a = none := by rw [Client.binds, hpoint]
    have hfrom : s.point.ended = false := by rw [hpoint]; rfl
    have hstays : LeaseStep params sender a s s :=
      .keeps s [] hends hbinds (List.append_nil _).symm (by simp) (by simp) rfl rfl id hfrom hfrom
    have hdone : LeaseStep params sender a s (s.goto .done) := .goto hends hbinds hfrom nofun rfl
  case init =>
    dsimp only
    split
    · exact hdone
    · refine .goto hends hbinds hfrom (fun _ => ?_) rfl
      rw [hpoint]
      rfl
  case parked =>
    dsimp only
    split
    · exact hdone
    · exact hstays
  case idle =>
    dsimp only
    split
    · exact hdone
    · exact hstays
  case done => exact hstays

end Worker

/-! ## What is left between the steps -/

theorem outstanding_append {log evs : List Event} (h : ∀ ev ∈ evs, ev.isRoute = false) :
    outstanding (log ++ evs) = outstanding log := by
  rw [outstanding, outstanding, List.foldl_append]
  generalize log.foldl routeStep [] = routes
  induction evs with
  | nil => rfl
  | cons ev evs ih =>
    have hstep : routeStep routes ev = routes := by
      have hquiet := h ev (by simp)
      cases ev with
      | routeInstalled => cases hquiet
      | routeRemoved => cases hquiet
      | _ => rfl
    rw [List.foldl_cons, hstep]
    exact ih fun ev hev => h ev (by simp [hev])

/-- The one default route of a gateway, where there is one. -/
def routesVia (gatewayBe : UInt32) : List UInt32 := if gatewayBe = 0 then [] else [gatewayBe]

/-- The routes that are left are the one the client has to remove, and where no lease is bound there is
neither a lease nor a router. -/
structure Tidy (s : Client) : Prop where
  routes : outstanding s.log = routesVia s.routeBe
  unbound : s.point.unbound = true → s.committedLeaseBe = 0 ∧ s.installedRouterBe = 0

theorem Client.routeBe_of_not_ended {s : Client} (h : s.point.ended = false) :
    s.routeBe = s.installedRouterBe := by
  unfold Client.routeBe
  split
  · next toRemove hpoint =>
    rw [hpoint] at h
    cases h
  · rfl

/-- What is to be removed is removed. -/
theorem outstanding_removeRoute {s : Client} {toRemove : UInt32} (h : outstanding s.log = routesVia toRemove) :
    outstanding (s.removeRoute toRemove).log = [] := by
  unfold Client.removeRoute
  by_cases hnone : toRemove = 0
  · rw [if_neg (not_not.mpr hnone), h]
    exact if_pos hnone
  · rw [if_pos hnone]
    change outstanding (s.log ++ [.routeRemoved toRemove]) = []
    rw [outstanding, List.foldl_append]
    change (outstanding s.log).erase toRemove = []
    rw [h, routesVia, if_neg hnone, List.erase_cons_head]

theorem outstanding_clear (s : Client) : outstanding s.clear.log = outstanding s.log :=
  outstanding_append (by simp [Event.isRoute])

theorem removeRoute_fields (s : Client) (toRemove : UInt32) :
    (s.removeRoute toRemove).committedLeaseBe = s.committedLeaseBe ∧
      (s.removeRoute toRemove).installedRouterBe = s.installedRouterBe := by
  unfold Client.removeRoute
  split <;> exact ⟨rfl, rfl⟩

theorem release_point (s : Client) : s.release.point = s.point := by
  unfold Client.release Client.removeRoute
  split <;> rfl

theorem release_fields (s : Client) :
    s.release.committedLeaseBe = 0 ∧ s.release.installedRouterBe = 0 :=
  removeRoute_fields s.clear s.installedRouterBe

namespace Tidy

variable {s : Client}

theorem clean (h : Tidy s) (hlease : s.committedLeaseBe = 0) (hroute : s.routeBe = 0) : Clean s :=
  ⟨hlease, h.routes.trans (if_pos hroute)⟩

/-- A client that is not about to remove a route gives everything up. -/
theorem release_routes (h : Tidy s) (hended : s.point.ended = false) : outstanding s.release.log = [] := by
  refine outstanding_removeRoute ?_
  rw [outstanding_clear, h.routes, Client.routeBe_of_not_ended hended]

theorem release (h : Tidy s) (hended : s.point.ended = false) {point : Point} (hpoint : point.ended = false) :
    Tidy (s.release.goto point) where
  routes := by
    have hroute : (s.release.goto point).routeBe = 0 :=
      (Client.routeBe_of_not_ended hpoint).trans (release_fields s).2
    rw [hroute]
    exact h.release_routes hended
  unbound _ := release_fields s

/-- Binding is done where there is nothing. -/
theorem bind (h : Tidy s) (hpoint : s.point.unbound = true) (hended : s.point.ended = false) (a : Answers)
    (ack : Reply) (xidBe : UInt32) : Tidy ((s.bind a ack).goto (.bound xidBe ack)) := by
  obtain ⟨-, hrouter⟩ := h.unbound hpoint
  have hroute : s.routeBe = 0 := (Client.routeBe_of_not_ended hended).trans hrouter
  have hnone : outstanding (s.log ++ [.bound ack]) = [] :=
    (outstanding_append (by simp [Event.isRoute])).trans (h.routes.trans (if_pos hroute))
  refine ⟨?_, nofun⟩
  unfold Client.bind
  dsimp only
  split
  · next hinstalls =>
    change outstanding (s.log ++ [.bound ack] ++ [.routeInstalled ack.routerBe]) = routesVia ack.routerBe
    rw [routesVia, if_neg hinstalls.1, outstanding, List.foldl_append]
    change outstanding (s.log ++ [.bound ack]) ++ [ack.routerBe] = [ack.routerBe]
    rw [hnone, List.nil_append]
  · exact hnone.trans (if_pos hrouter).symm

theorem step (h : Tidy s) (params : Params) (sender : Sender) (a : Answers) :
    Tidy (s.step params sender a) := by
  have hstep := leaseStep_step params sender a s
  generalize s.step params sender a = next at hstep ⊢
  cases hstep with
  | keeps _ evs _ _ hlog hroutes _ hlease hrouter hpoint hfrom hto =>
    refine ⟨?_, fun hunbound => ?_⟩
    · rw [hlog, outstanding_append hroutes, h.routes, Client.routeBe_of_not_ended hfrom,
        Client.routeBe_of_not_ended hto, hrouter]
    · rw [hlease, hrouter]
      exact h.unbound (hpoint hunbound)
  | binds ack xidBe _ _ _ hpoint hfrom => exact h.bind hpoint hfrom a ack xidBe
  | ends _ evs _ _ _ hlog hroutes _ _ hrouter hfrom hto =>
    have hroute : next.routeBe = next.installedRouterBe := by rw [Client.routeBe, hto]
    refine ⟨?_, fun hunbound => ?_⟩
    · rw [hlog, outstanding_append hroutes, h.routes, Client.routeBe_of_not_ended hfrom, hroute, hrouter]
    · rw [hto] at hunbound
      cases hunbound
  | clears hpoint =>
    have hroute : s.routeBe = s.installedRouterBe := by rw [Client.routeBe, hpoint]
    refine ⟨?_, fun _ => ⟨rfl, rfl⟩⟩
    change outstanding s.clear.log = routesVia s.installedRouterBe
    rw [outstanding_clear, h.routes, hroute]
  | unroutes toRemove hpoint =>
    have hfields := removeRoute_fields s toRemove
    have hnothing := h.unbound (by rw [hpoint]; rfl)
    have hroute : s.routeBe = toRemove := by rw [Client.routeBe, hpoint]
    refine ⟨?_, fun _ => ⟨hfields.1.trans hnothing.1, hfields.2.trans hnothing.2⟩⟩
    change outstanding (s.removeRoute toRemove).log = routesVia (s.removeRoute toRemove).installedRouterBe
    rw [outstanding_removeRoute (h.routes.trans (by rw [hroute])), hfields.2, hnothing.2]
    rfl

end Tidy

namespace Service

variable {sender : Sender} {s : Service} {cmd : Command}

/-- What a command does: it waits, it releases, or it is a step of the worker. -/
inductive CommandStep (sender : Sender) (s : Service) (cmd : Command) : Service → Prop
  | waits (hends : s.ends sender cmd = none) : CommandStep sender s cmd s
  | starts (params : Params) (hjoins : s.joins = true) :
      CommandStep sender s cmd ⟨s.client.release.goto .init, params, true⟩
  | aborts (hjoins : s.joins = true) :
      CommandStep sender s cmd { s with client := s.client.release, joinable := false }
  | works (a : Answers) (hcmd : cmd = .worker a) (hjoinable : s.joinable = true) :
      CommandStep sender s cmd { s with client := s.client.step s.params sender a }

theorem commandStep_step (sender : Sender) (s : Service) (cmd : Command) :
    CommandStep sender s cmd (s.step sender cmd) := by
  cases cmd with
  | start params =>
    by_cases hjoins : s.joins = true
    · rw [step, if_pos hjoins]
      exact .starts params hjoins
    · rw [step, if_neg hjoins]
      exact .waits (if_neg hjoins)
  | abort =>
    by_cases hjoins : s.joins = true
    · rw [step, if_pos hjoins]
      exact .aborts hjoins
    · rw [step, if_neg hjoins]
      exact .waits (if_neg hjoins)
  | worker a =>
    by_cases hjoinable : s.joinable = true
    · rw [step, if_pos hjoinable]
      exact .works a rfl hjoinable
    · rw [step, if_neg hjoinable]
      exact .waits (if_neg hjoinable)

/-- The client is tidy, and without a worker it has nothing and is at rest. -/
structure Settled (s : Service) : Prop where
  tidy : Tidy s.client
  joined : s.joinable = false → s.client.committedLeaseBe = 0 ∧ s.client.installedRouterBe = 0
  rests : s.joinable = false → s.client.point = .done

/-- A join returns when the worker is done. -/
theorem Settled.done_of_joins (h : s.Settled) (hjoins : s.joins = true) : s.client.point = .done := by
  rcases Bool.or_eq_true_iff.mp hjoins with hjoined | hdone
  · exact h.rests (by simpa using hjoined)
  · exact of_decide_eq_true hdone

theorem Settled.step (h : s.Settled) (cmd : Command) : (s.step sender cmd).Settled := by
  have hstep := commandStep_step sender s cmd
  generalize s.step sender cmd = next at hstep ⊢
  cases hstep with
  | waits => exact h
  | starts params hjoins =>
    have hended : s.client.point.ended = false := by rw [h.done_of_joins hjoins]; rfl
    exact ⟨h.tidy.release hended rfl, nofun, nofun⟩
  | aborts hjoins =>
    have hdone := h.done_of_joins hjoins
    have hpoint : s.client.release.point = .done := (release_point s.client).trans hdone
    have htidy : Tidy (s.client.release.goto s.client.release.point) :=
      h.tidy.release (by rw [hdone]; rfl) (by rw [hpoint]; rfl)
    exact ⟨htidy, fun _ => release_fields s.client, fun _ => hpoint⟩
  | works a _ hjoinable =>
    refine ⟨h.tidy.step s.params sender a, fun hjoined => ?_, fun hjoined => ?_⟩
    · cases hjoinable.symm.trans hjoined
    · cases hjoinable.symm.trans hjoined

theorem run_concat (sender : Sender) (cmds : List Command) (cmd : Command) :
    run sender (cmds ++ [cmd]) = (run sender cmds).step sender cmd := by
  rw [run, List.foldl_append]
  rfl

/-- **Run lemma.** -/
theorem settled_run (sender : Sender) (cmds : List Command) : (run sender cmds).Settled := by
  induction cmds using List.reverseRecOn with
  | nil => exact ⟨⟨rfl, nofun⟩, fun _ => ⟨rfl, rfl⟩, fun _ => rfl⟩
  | append_singleton cmds cmd ih =>
    rw [run_concat]
    exact ih.step cmd

/-- Giving up a lease sends nothing. -/
theorem not_discover_release (c : Client) :
    ∀ ev ∈ c.release.log.drop c.log.length, ev.isDiscover = false := by
  have hsent : ∃ evs : List Event, (∀ ev ∈ evs, ev.isDiscover = false) ∧ c.release.log = c.log ++ evs := by
    unfold Client.release Client.removeRoute
    split
    · refine ⟨[.released, .routeRemoved c.installedRouterBe], by simp [Event.isDiscover], ?_⟩
      simp [Client.note, Client.clear]
    · exact ⟨[.released], by simp [Event.isDiscover], rfl⟩
  obtain ⟨evs, hevs, hrelease⟩ := hsent
  rwa [hrelease, List.drop_left]

/-- A DISCOVER is sent by a worker that has not bound, in a step that leaves the lease and the route to
remove alone. -/
theorem unbound_of_discover {ev : Event} (hev : ev ∈ s.sentBy sender cmd) (hdiscover : ev.isDiscover = true) :
    s.client.point.unbound = true ∧ s.client.point.ended = false ∧
      (s.step sender cmd).client.point.ended = false ∧
      (s.step sender cmd).client.committedLeaseBe = s.client.committedLeaseBe ∧
      (s.step sender cmd).client.installedRouterBe = s.client.installedRouterBe := by
  have hnot : ∀ {evs : List Event}, (∀ ev ∈ evs, ev.isDiscover = false) → ev ∉ evs := by
    intro evs hevs hmem
    rw [hevs ev hmem] at hdiscover
    cases hdiscover
  have hstep := commandStep_step sender s cmd
  rw [sentBy] at hev
  generalize s.step sender cmd = next at hstep hev ⊢
  cases hstep with
  | waits => simp at hev
  | starts => exact absurd hev (hnot (not_discover_release s.client))
  | aborts => exact absurd hev (hnot (not_discover_release s.client))
  | works a =>
    have hworker := leaseStep_step s.params sender a s.client
    dsimp only at hev ⊢
    generalize s.client.step s.params sender a = client at hworker hev ⊢
    cases hworker with
    | keeps _ evs _ _ hlog _ hunbound hlease hrouter _ hfrom hto =>
      rw [hlog, List.drop_left] at hev
      exact ⟨hunbound ev hev hdiscover, hfrom, hto, hlease, hrouter⟩
    | binds ack xidBe =>
      refine absurd hev (hnot ?_)
      unfold Client.bind
      dsimp only
      split <;> simp [Client.goto, Client.note, Event.isDiscover]
    | ends _ evs _ _ _ hlog _ hquiet =>
      rw [hlog, List.drop_left] at hev
      exact absurd hev (hnot hquiet)
    | clears =>
      refine absurd hev (hnot ?_)
      simp [Client.goto, Client.clear, Client.note, Event.isDiscover]
    | unroutes toRemove =>
      refine absurd hev (hnot ?_)
      unfold Client.removeRoute
      split <;> simp [Client.goto, Client.note, Event.isDiscover]

end Service

/-! ## The lease that is shown -/

section Shown

variable {sender : Sender} {cmds : List Command} {cmd : Command} {leaseBe : UInt32}

theorem HeldSince.concat (h : HeldSince sender cmds leaseBe)
    (hends : (Service.run sender cmds).ends sender cmd = none) :
    HeldSince sender (cmds ++ [cmd]) leaseBe := by
  obtain ⟨before, bound, after, ack, rfl, hbinds, htype, hlease, halong⟩ := h
  refine ⟨before, bound, after ++ [cmd], ack, by simp, hbinds, htype, hlease, ?_⟩
  refine halong.append (.cons ?_ along_nil)
  rwa [Service.run, List.foldl_append] at hends

theorem heldSince_bound {ack : Reply} (hbinds : (Service.run sender cmds).binds sender cmd = some ack)
    (htype : ack.msgType = kDhcpAck) : HeldSince sender (cmds ++ [cmd]) ack.yiaddrBe :=
  ⟨cmds, cmd, [], ack, rfl, hbinds, htype, rfl, along_nil⟩

/-- A lease that the last command ends is not held. -/
theorem not_heldSince_of_ends {cause : LeaseEnd} (hends : (Service.run sender cmds).ends sender cmd = some cause)
    (hbinds : (Service.run sender cmds).binds sender cmd = none) :
    ¬ HeldSince sender (cmds ++ [cmd]) leaseBe := by
  rintro ⟨before, bound, after, ack, hcmds, hbound, -, -, halong⟩
  rcases List.eq_nil_or_concat after with rfl | ⟨after, last, rfl⟩
  · obtain ⟨rfl, hlast⟩ := List.append_inj' hcmds rfl
    cases hlast
    cases hbinds.symm.trans hbound
  · rw [List.concat_eq_append] at hcmds halong
    rw [← List.cons_append, ← List.append_assoc] at hcmds
    obtain ⟨rfl, hlast⟩ := List.append_inj' hcmds rfl
    cases hlast
    rw [Service.run, List.foldl_append] at hends
    cases hends.symm.trans (along_concat.mp halong).2

/-- What is shown after a run that ends in `s`, and where the worker is then. -/
inductive Shown (sender : Sender) (cmds : List Command) (s : Service) : Prop
  | nothing (h : s.client.committedLeaseBe = 0)
  | held (h : HeldSince sender cmds s.client.committedLeaseBe) (hpoint : s.client.point ≠ .restart)
  | ended (h : JustEnded sender cmds s.client.committedLeaseBe) (hpoint : s.client.point = .restart)
      (hjoinable : s.joinable = true)

theorem JustEnded.waits (h : JustEnded sender cmds leaseBe)
    (hstays : (Service.run sender cmds).step sender cmd = Service.run sender cmds) :
    JustEnded sender (cmds ++ [cmd]) leaseBe := by
  obtain ⟨held, ending, waits, cause, rfl, hheld, hends, hrun⟩ := h
  refine ⟨held, ending, waits ++ [cmd], cause, by simp, hheld, hends, ?_⟩
  rw [Service.run_concat, hstays, hrun]

theorem point_ne_restart {s : Client} (h : s.point.ended = false) : s.point ≠ .restart := by
  intro hpoint
  rw [hpoint] at h
  cases h

/-- A step of the worker. -/
theorem Shown.works (h : Shown sender cmds (Service.run sender cmds)) {a : Answers}
    (hjoinable : (Service.run sender cmds).joinable = true) :
    Shown sender (cmds ++ [.worker a])
      { Service.run sender cmds with
        client := (Service.run sender cmds).client.step (Service.run sender cmds).params sender a } := by
  have hends : (Service.run sender cmds).ends sender (.worker a) =
      (Service.run sender cmds).client.ends (Service.run sender cmds).params sender a := if_pos hjoinable
  have hbinds : (Service.run sender cmds).binds sender (.worker a) =
      (Service.run sender cmds).client.binds (Service.run sender cmds).params sender a := if_pos hjoinable
  have hworker := leaseStep_step (Service.run sender cmds).params sender a (Service.run sender cmds).client
  generalize (Service.run sender cmds).client.step (Service.run sender cmds).params sender a = client
    at hworker ⊢
  -- A lease that is shown before the step is one that is held: the worker is not past its end.
  have hheld : ∀ {leaseBe}, (Service.run sender cmds).client.point.ended = false →
      (Service.run sender cmds).client.committedLeaseBe = leaseBe →
      leaseBe = 0 ∨ HeldSince sender cmds leaseBe := by
    rintro leaseBe hfrom rfl
    cases h with
    | nothing h => exact .inl h
    | held h => exact .inr h
    | ended _ hpoint => exact absurd hpoint (point_ne_restart hfrom)
  cases hworker with
  | keeps _ _ hkeeps _ _ _ _ hlease _ _ hfrom hto =>
    rcases hheld hfrom hlease.symm with hzero | hheld
    · exact .nothing hzero
    · exact .held (hheld.concat (hends.trans hkeeps)) (point_ne_restart hto)
  | binds ack xidBe _ hack htype =>
    have hlease : ((Service.run sender cmds).client.bind a ack).committedLeaseBe = ack.yiaddrBe := by
      unfold Client.bind
      dsimp only
      split <;> rfl
    refine .held ?_ nofun
    change HeldSince sender _ ((Service.run sender cmds).client.bind a ack).committedLeaseBe
    rw [hlease]
    exact heldSince_bound (hbinds.trans hack) htype
  | ends _ _ cause hcause _ _ _ _ hlease _ hfrom hto =>
    rcases hheld hfrom hlease.symm with hzero | hheld
    · exact .nothing hzero
    · exact .ended ⟨cmds, .worker a, [], cause, rfl, hheld, hends.trans hcause, rfl⟩ hto hjoinable
  | clears => exact .nothing rfl
  | unroutes toRemove hpoint =>
    have hnothing := (Service.settled_run sender cmds).tidy.unbound (by rw [hpoint]; rfl)
    exact .nothing ((removeRoute_fields _ toRemove).1.trans hnothing.1)

/-- **Step lemma.** -/
theorem Shown.step (h : Shown sender cmds (Service.run sender cmds)) (cmd : Command) :
    Shown sender (cmds ++ [cmd]) ((Service.run sender cmds).step sender cmd) := by
  have hstep := Service.commandStep_step sender (Service.run sender cmds) cmd
  generalize hnext : (Service.run sender cmds).step sender cmd = next at hstep ⊢
  cases hstep with
  | waits hends =>
    cases h with
    | nothing h => exact .nothing h
    | held h hpoint => exact .held (h.concat hends) hpoint
    | ended h hpoint hjoinable => exact .ended (h.waits hnext) hpoint hjoinable
  | starts => exact .nothing (release_fields (Service.run sender cmds).client).1
  | aborts => exact .nothing (release_fields (Service.run sender cmds).client).1
  | works a hcmd hjoinable =>
    rw [hcmd]
    exact h.works hjoinable

theorem shown_run (sender : Sender) (cmds : List Command) : Shown sender cmds (Service.run sender cmds) := by
  induction cmds using List.reverseRecOn with
  | nil => exact .nothing rfl
  | append_singleton cmds cmd ih =>
    rw [Service.run_concat]
    exact ih.step cmd

/-- Where the lease has ended the worker goes on to clear it. -/
theorem clearsNext_of_restart {s : Service} (hpoint : s.client.point = .restart)
    (hjoinable : s.joinable = true) : ClearsNext sender s := by
  intro a
  have hstep : s.step sender (.worker a) =
      { s with client := s.client.clear.goto (.unroute s.client.installedRouterBe) } := by
    rw [Service.step, if_pos hjoinable, Client.step, hpoint]
  refine ⟨by rw [hstep]; rfl, ?_⟩
  rw [Service.sentBy, hstep]
  exact List.drop_left

end Shown

namespace Service

/-- **Nothing is left of a lease.** After any commands and any answers of the world: whenever a DISCOVER is
sent no lease is shown and no route is left, before the step and after it; the same holds once `abort` has
returned, and as long as there is no worker; and a lease that is shown was bound by an ACK and neither
declined, refused, expired nor aborted since, or it was so in the last step of the worker, whose next step
clears it. -/
theorem lease_cleanup (sender : Sender) (cmds : List Command) :
    (∀ cmd frame, .sent .Discover frame ∈ (run sender cmds).sentBy sender cmd →
      Clean (run sender cmds).client ∧ Clean (run sender (cmds ++ [cmd])).client) ∧
    ((run sender cmds).joins = true → Clean (run sender (cmds ++ [.abort])).client) ∧
    ((run sender cmds).joinable = false → Clean (run sender cmds).client) ∧
    ((run sender cmds).client.committedLeaseBe ≠ 0 →
      HeldSince sender cmds (run sender cmds).client.committedLeaseBe ∨
      JustEnded sender cmds (run sender cmds).client.committedLeaseBe ∧
        ClearsNext sender (run sender cmds)) := by
  have hsettled := settled_run sender cmds
  refine ⟨fun cmd frame hsent => ?_, fun hjoins => ?_, fun hjoined => ?_, fun hshown => ?_⟩
  · obtain ⟨hunbound, hfrom, hto, hlease, hrouter⟩ := unbound_of_discover hsent rfl
    obtain ⟨hlease₀, hrouter₀⟩ := hsettled.tidy.unbound hunbound
    have hnext := settled_run sender (cmds ++ [cmd])
    rw [run_concat] at hnext ⊢
    exact ⟨hsettled.tidy.clean hlease₀ ((Client.routeBe_of_not_ended hfrom).trans hrouter₀),
      hnext.tidy.clean (hlease.trans hlease₀)
        ((Client.routeBe_of_not_ended hto).trans (hrouter.trans hrouter₀))⟩
  · rw [run_concat, step, if_pos hjoins]
    refine ⟨(release_fields _).1, hsettled.tidy.release_routes ?_⟩
    rw [hsettled.done_of_joins hjoins]
    rfl
  · obtain ⟨hlease, hrouter⟩ := hsettled.joined hjoined
    refine hsettled.tidy.clean hlease ((Client.routeBe_of_not_ended ?_).trans hrouter)
    rw [hsettled.rests hjoined]
    rfl
  · cases shown_run sender cmds with
    | nothing h => exact absurd h hshown
    | held h => exact .inl h
    | ended h hpoint hjoinable => exact .inr ⟨h, clearsNext_of_restart hpoint hjoinable⟩

/-- An ARP frame of another station that claims 10.0.0.7. -/
def conflictFrame : List UInt8 :=
  List.replicate 14 0 ++ [0, 1, 8, 0] ++ [6, 4, 0, 2] ++ [2, 0, 0, 0, 0, 9] ++ [10, 0, 0, 7] ++ List.replicate 10 0

/-- A client that probes has bound 10.0.0.7. -/
def probingRun : List Command :=
  .start { probes := true } :: (sampleAnswers [10, 0, 0, 7] ++ [({} : Answers)]).map .worker

/-- The same, and the probe finds the conflict: the DECLINE is sent. -/
def declinedRun : List Command := probingRun ++ [.worker { arpFrames := [conflictFrame] }]

/-- The lease is shown after its DECLINE. -/
theorem shown_after_decline :
    ¬ ((run sampleSender declinedRun).client.committedLeaseBe ≠ 0 →
      HeldSince sampleSender declinedRun (run sampleSender declinedRun).client.committedLeaseBe) := by
  intro h
  have hends : (run sampleSender probingRun).ends sampleSender (.worker { arpFrames := [conflictFrame] }) =
      some .decline := by decide +kernel
  have hbinds : (run sampleSender probingRun).binds sampleSender (.worker { arpFrames := [conflictFrame] }) =
      none := by decide +kernel
  exact not_heldSince_of_ends hends hbinds (h (by decide +kernel))

end Service

end Tc8Harness.Dut
