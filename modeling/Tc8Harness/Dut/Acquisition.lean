import Tc8Harness.Dut.Dhcpv4Client
import Tc8Harness.Dut.Dhcpv4Decoded
import Tc8Harness.Lib.Trace

/-!
# What the client asks for and what it binds

What the frames of a run say, against the replies the client had accepted when it sent them. The client
copies the fields of a reply into its next messages as it found them, zero standing for an option that was
not there, and it does not compare an ACK with its REQUEST. `Conforms` is what RFC 2131 has it do;
`acquisition_conforms` proves it for the runs whose replies give it no occasion to fail (`StepOk`).
-/

namespace Tc8Harness.Dut

open Wire Someip Dissect
open Stimulus (kEthBroadcast)

/-! ## The fields of a frame on the wire -/

def wireDstBe (frame : List UInt8) : UInt32 := copy32 frame 30

def wireXidBe (frame : List UInt8) : UInt32 := copy32 frame 46

def wireCiaddrBe (frame : List UInt8) : UInt32 := copy32 frame 54

/-- The value of the first option of the code. -/
def wireOption (frame : List UInt8) (code : UInt8) : Option (List UInt8) :=
  ((dhcpItems (frame.drop 282)).1.find? fun it => it.1 = code).map Prod.snd

section Frame

variable (sender : Sender) (spec : DhcpEmitSpec)

/-- The frame of a spec without a flavor. -/
def DhcpEmitSpec.plainFrame : List UInt8 := spec.fields.frame sender spec.msgType

/-- The frame up to the BOOTP message. -/
theorem frame_split (e : EmitFields) (msgType : UInt8) :
    ∃ head : List UInt8, head.length = 30 ∧ ∃ mid : List UInt8, mid.length = 8 ∧
      e.frame sender msgType = head ++ (bytes32 e.l3DstBe ++ (mid ++ e.bootp sender msgType)) := by
  have hip : writeBe16 e.ip 10 e.ipChecksum = e.ip e.ipChecksum :=
    writeBe16_append _ _ _ _ (by simp)
  have hudp : writeBe16 (e.udp sender msgType) 6 (e.udpCsum sender msgType) =
      e.udp sender msgType (e.udpCsum sender msgType) := writeBe16_append _ _ _ _ (by simp)
  refine ⟨kEthBroadcast.toList ++ (sender.dutMac.toList ++ (putBe16 kEtherTypeIpv4 ++ ([0x45, 0x00] ++
    (putBe16 (UInt16.ofNat e.ip4Len) ++ (putBe16 0x0000 ++ (putBe16 0x0000 ++ ([64, 0x11] ++
      (putBe16 e.ipChecksum ++ bytes32 e.l3SrcBe)))))))), by simp,
    putBe16 kUdpClientPort ++ (putBe16 kUdpServerPort ++ (putBe16 (UInt16.ofNat e.udpLen) ++
      putBe16 (e.udpCsum sender msgType))), by simp, ?_⟩
  rw [EmitFields.frame, hip, hudp]
  simp only [EmitFields.ip, EmitFields.udp, List.append_assoc]

theorem wireDstBe_plainFrame : wireDstBe (spec.plainFrame sender) = spec.l3DstBe := by
  obtain ⟨head, hhead, mid, -, hframe⟩ := frame_split sender spec.fields spec.msgType
  rw [DhcpEmitSpec.plainFrame, hframe, wireDstBe, copy32_append_right (by omega), hhead]
  exact copy32_bytes32 _ _

/-- A field of the BOOTP message behind the headers. -/
theorem copy32_plainFrame (off : Nat) :
    copy32 (spec.plainFrame sender) (42 + off) =
      copy32 (spec.fields.bootp sender spec.msgType) off := by
  obtain ⟨head, hhead, mid, hmid, hframe⟩ := frame_split sender spec.fields spec.msgType
  rw [DhcpEmitSpec.plainFrame, hframe, copy32_append_right (by omega),
    copy32_append_right (by rw [length_bytes32]; omega), copy32_append_right (by rw [length_bytes32]; omega),
    length_bytes32, hhead, hmid]
  congr 1
  omega

theorem wireXidBe_plainFrame : wireXidBe (spec.plainFrame sender) = spec.xidBe := by
  rw [wireXidBe, show 46 = 42 + 4 from rfl, copy32_plainFrame, EmitFields.bootp,
    copy32_append_right (by simp)]
  exact copy32_bytes32 _ _

theorem wireCiaddrBe_plainFrame : wireCiaddrBe (spec.plainFrame sender) = spec.ciaddrBe := by
  rw [wireCiaddrBe, show 54 = 42 + 12 from rfl, copy32_plainFrame]
  exact spec.fields.copy32_bootp_ciaddr sender spec.msgType

theorem wireItems_plainFrame :
    dhcpItems ((spec.plainFrame sender).drop 282) = (spec.fields.items spec.msgType, .marker) := by
  obtain ⟨head, hhead, mid, hmid, hframe⟩ := frame_split sender spec.fields spec.msgType
  have hlen : 282 = (head ++ (bytes32 spec.l3DstBe ++ mid)).length + kOptionsOff := by
    simp [hhead, hmid, kOptionsOff]
  have hdrop : (spec.plainFrame sender).drop 282 = spec.fields.options spec.msgType := by
    rw [DhcpEmitSpec.plainFrame, hframe, ← List.append_assoc (bytes32 _), ← List.append_assoc head, hlen]
    exact (List.drop_length_add_append _).trans (spec.fields.drop_bootp_options sender spec.msgType)
  rw [hdrop]
  exact spec.fields.dhcpItems_options spec.msgType rfl rfl rfl

theorem wireOption_plainFrame :
    wireOption (spec.plainFrame sender) 50 =
        (if spec.requestedAddrBe ≠ 0 then some (bytes32 spec.requestedAddrBe) else none) ∧
      wireOption (spec.plainFrame sender) 54 =
        (if spec.serverIdBe ≠ 0 then some (bytes32 spec.serverIdBe) else none) := by
  have hitems := wireItems_plainFrame sender spec
  rw [wireOption, wireOption, hitems]
  by_cases hreq : spec.requestedAddrBe = 0 <;> by_cases hsid : spec.serverIdBe = 0 <;>
    simp [EmitFields.items, EmitFields.addrItems, DhcpEmitSpec.fields, hreq, hsid]

end Frame

/-! ## What a run should look like -/

def lastSent (phase : DhcpPhase) : List Event → Option (List UInt8) :=
  Trace.last fun
    | .sent p frame => if p = phase then some frame else none
    | _ => none

def lastOffer : List Event → Option Reply :=
  Trace.last fun
    | .offered offer => some offer
    | _ => none

def leaseChange : Event → Option (Option UInt32)
  | .bound ack => some (some ack.yiaddrBe)
  | .released => some none
  | _ => none

/-- The address the client holds. -/
def leaseOf (log : List Event) : Option UInt32 := (Trace.last leaseChange log).join

def serverChange : Event → Option UInt32
  | .bound ack => some ack.serverIdBe
  | .renewed ack => if ack.serverIdBe ≠ 0 then some ack.serverIdBe else none
  | _ => none

/-- The server identifier of the binding: that of the ACK, or of the last renewal that carried one. -/
def bindingServer : List Event → Option UInt32 := Trace.last serverChange

/-- A REQUEST for the lease the client holds. -/
def AsksForLease (past : List Event) (frame : List UInt8) : Prop :=
  leaseOf past = some (wireCiaddrBe frame) ∧ wireOption frame 50 = none ∧ wireOption frame 54 = none

/-- What is asked of an event, given the events before it. -/
def Conforms (past : List Event) : Event → Prop
  | .sent .Selecting frame =>
    (lastSent .Discover past).map wireXidBe = some (wireXidBe frame) ∧
      ∃ offer, lastOffer past = some offer ∧ offer.msgType = kDhcpOffer ∧
        wireOption frame 50 = some (bytes32 offer.yiaddrBe) ∧
        wireOption frame 54 = some (bytes32 offer.serverIdBe)
  | .sent .Renewing frame =>
    bindingServer past = some (wireDstBe frame) ∧ wireDstBe frame ≠ 0 ∧ AsksForLease past frame
  | .sent .Rebinding frame => wireDstBe frame = kLimitedBroadcastBe ∧ AsksForLease past frame
  | .bound ack =>
    ack.msgType = kDhcpAck ∧
      (lastSent .Selecting past).bind (wireOption · 50) = some (bytes32 ack.yiaddrBe)
  | _ => True

/-- The condition on a step: the OFFER the client asks for names an address and a server, and the ACK it
binds has that address and, for a lease that is renewed, a server. -/
def StepOk (params : Params) (sender : Sender) (s : Client) (a : Answers) : Prop :=
  match s.point with
  | .offerWait xidBe _ =>
    ∀ offer, pollForReply (Client.gate params sender xidBe kDhcpOffer) a.datagrams = some offer →
      a.stopRequested = false → offer.yiaddrBe ≠ 0 ∧ offer.serverIdBe ≠ 0
  | .ackWait xidBe _ offer =>
    ∀ ack, pollForReply (Client.gate params sender xidBe kDhcpAck) a.datagrams = some ack →
      a.stopRequested = false →
        ack.yiaddrBe = offer.yiaddrBe ∧ (ack.serverIdBe ≠ 0 ∨ ack.leaseSeconds = 0)
  | _ => True

/-- Every step of a run meets the condition. -/
def StepsOk (params : Params) (sender : Sender) : Client → List Answers → Prop
  | _, [] => True
  | s, a :: answers => StepOk params sender s a ∧ StepsOk params sender (s.step params sender a) answers

/-! ## The messages of a turn -/

namespace PhaseState

variable {b : Binding} {s : PhaseState} {now : Int}

/-- What a block of a turn may do: the server stays, and what it sends asks for the lease. -/
structure BlockOk (b : Binding) (s : PhaseState) (r : PhaseState × List DhcpEmitSpec) : Prop where
  server : r.1.serverIdBe = s.serverIdBe
  messages : ∀ m ∈ r.2, m = s.renewingRequest b ∨ m = rebindingRequest b

theorem BlockOk.trans {r r' : PhaseState × List DhcpEmitSpec} (h : BlockOk b s r)
    (h' : BlockOk b r.1 r') : BlockOk b s (r'.1, r.2 ++ r'.2) where
  server := h'.server.trans h.server
  messages m hm := by
    rcases List.mem_append.1 hm with hm | hm
    · exact h.messages m hm
    · rw [renewingRequest, ← h.server]
      exact h'.messages m hm

theorem blockOk_ite {c : Prop} [Decidable c] {s' : PhaseState} {m : DhcpEmitSpec}
    (hserver : s'.serverIdBe = s.serverIdBe) (hm : m = s.renewingRequest b ∨ m = rebindingRequest b) :
    BlockOk b s (if c then (s', [m]) else (s, [])) := by
  split
  · refine ⟨hserver, fun m' hm' => ?_⟩
    rw [List.mem_singleton.1 hm']
    exact hm
  · exact ⟨rfl, fun _ h => nomatch h⟩

theorem blockOk_tick : BlockOk b s (s.tick b now) := by
  have h₁ : BlockOk b s (s.enterRenewing b now) := blockOk_ite rfl (.inl rfl)
  have h₂ : ∀ s, BlockOk b s (s.enterRebinding b now) := fun _ => blockOk_ite rfl (.inr rfl)
  have h₃ : ∀ s, BlockOk b s (s.resendRenewing b now) := fun _ => blockOk_ite rfl (.inl rfl)
  have h₄ : ∀ s, BlockOk b s (s.resendRebinding b now) := fun _ => blockOk_ite rfl (.inr rfl)
  exact h₁.trans ((h₂ _).trans ((h₃ _).trans (h₄ _)))

theorem turn_messages {reply : Option (Reply × Int)} {m : DhcpEmitSpec}
    (h : m ∈ (s.turn b now reply).2) : m = s.renewingRequest b ∨ m = rebindingRequest b := by
  have hsent : (s.turn b now reply).2 = (s.tick b now).2 := by
    unfold turn
    dsimp only
    split
    · rfl
    · cases reply <;> rfl
  rw [hsent] at h
  exact blockOk_tick.messages m h

/-- The server of the next turn: that of a renewal which carries one. -/
theorem turn_serverIdBe {s' : PhaseState} {reply : Option (Reply × Int)}
    (h : (s.turn b now reply).1 = some s') :
    s'.serverIdBe = s.serverIdBe ∧ Client.renewals reply = [] ∨
      ∃ r, Client.renewals reply = [.renewed r] ∧
        s'.serverIdBe = if r.serverIdBe ≠ 0 then r.serverIdBe else s.serverIdBe := by
  have hkept : (s.tick b now).1.serverIdBe = s.serverIdBe := blockOk_tick.server
  unfold turn at h
  dsimp only at h
  split at h
  · cases h
  · match reply, h with
    | none, h =>
      cases h
      exact .inl ⟨hkept, rfl⟩
    | some (r, rearmed), h =>
      dsimp only [onReply] at h
      by_cases hnak : r.msgType = kDhcpNak
      · rw [if_pos hnak] at h
        cases h
      rw [if_neg hnak] at h
      by_cases hack : r.msgType = kDhcpAck ∧ r.leaseSeconds ≠ 0
      · rw [if_pos hack, hkept] at h
        cases h
        exact .inr ⟨r, if_pos hack, rfl⟩
      · rw [if_neg hack] at h
        cases h
        exact .inl ⟨hkept, if_neg hack⟩

end PhaseState

/-! ## The invariant -/

/-- What the log says about the lease of a point. -/
structure HoldsLease (log : List Event) (addrBe serverIdBe : UInt32) : Prop where
  lease : leaseOf log = some addrBe
  server : bindingServer log = some serverIdBe

/-- What the log says about the values a point carries. -/
def PointOk (s : Client) : Prop :=
  match s.point with
  | .offerWait xidBe _ => (lastSent .Discover s.log).map wireXidBe = some xidBe
  | .ackWait _ _ offer =>
    (lastSent .Selecting s.log).bind (wireOption · 50) = some (bytes32 offer.yiaddrBe)
  | .bound _ ack | .probe _ ack | .arm _ ack =>
    s.committedLeaseBe = ack.yiaddrBe ∧ HoldsLease s.log ack.yiaddrBe ack.serverIdBe ∧
      (ack.serverIdBe ≠ 0 ∨ ack.leaseSeconds = 0)
  | .phase binding state =>
    HoldsLease s.log binding.clientAddrBe state.serverIdBe ∧ state.serverIdBe ≠ 0
  | _ => True

/-- The invariant of a run that meets the condition. -/
structure RunOk (s : Client) : Prop where
  conforms : Trace.Holds Conforms s.log
  point : PointOk s

/-- Events that leave the lease and the server as they are. -/
def Event.keepsLease : Event → Bool
  | .bound _ | .renewed _ | .released => false
  | _ => true

theorem keepsLease_changes {ev : Event} (h : ev.keepsLease = true) :
    leaseChange ev = none ∧ serverChange ev = none := by
  cases ev <;> first | exact ⟨rfl, rfl⟩ | cases h

theorem HoldsLease.append {log evs : List Event} {addrBe serverIdBe : UInt32}
    (h : HoldsLease log addrBe serverIdBe) (hkeep : ∀ ev ∈ evs, ev.keepsLease = true) :
    HoldsLease (log ++ evs) addrBe serverIdBe where
  lease := by
    rw [leaseOf, Trace.last_append_none fun ev hev => (keepsLease_changes (hkeep ev hev)).1]
    exact h.lease
  server := by
    rw [bindingServer, Trace.last_append_none fun ev hev => (keepsLease_changes (hkeep ev hev)).2]
    exact h.server

theorem holdsLease_bound (log : List Event) (ack : Reply) :
    HoldsLease (log ++ [.bound ack]) ack.yiaddrBe ack.serverIdBe where
  lease := by
    rw [leaseOf, Trace.last_concat_some (show leaseChange (.bound ack) = some _ from rfl)]
    rfl
  server := Trace.last_concat_some rfl

theorem HoldsLease.renewed {log : List Event} {addrBe serverIdBe : UInt32}
    (h : HoldsLease log addrBe serverIdBe) (ack : Reply) :
    HoldsLease (log ++ [.renewed ack]) addrBe
      (if ack.serverIdBe ≠ 0 then ack.serverIdBe else serverIdBe) where
  lease := by
    rw [leaseOf, Trace.last_concat_none rfl]
    exact h.lease
  server := by
    by_cases hserver : ack.serverIdBe ≠ 0
    · rw [if_pos hserver]
      exact Trace.last_concat_some (if_pos hserver)
    · rw [if_neg hserver, bindingServer,
        Trace.last_concat_none (show serverChange (.renewed ack) = none from if_neg hserver)]
      exact h.server

/-! ## One step -/

section Step

variable {params : Params} {sender : Sender} {s : Client} {a : Answers}

theorem sentEvents_plain (sender : Sender) (hflavor : params.flavor = .None) (spec : DhcpEmitSpec) :
    Client.sentEvents params sender spec = [.sent spec.phase (spec.plainFrame sender)] := by
  rw [Client.sentEvents, hflavor, emitDhcpMessage_eq]
  rfl

/-- Events of which nothing is asked may be added to a log. -/
theorem Holds.free {log evs : List Event} (h : Trace.Holds Conforms log)
    (hfree : ∀ past, ∀ ev ∈ evs, Conforms past ev) : Trace.Holds Conforms (log ++ evs) :=
  h.append fun past _ ev hev => hfree (log ++ past) ev hev

theorem conforms_clear (h : Trace.Holds Conforms s.log) : Trace.Holds Conforms s.clear.log := by
  refine Holds.free h fun past ev hev => ?_
  rw [List.mem_singleton.1 hev]
  trivial

theorem conforms_removeRoute (h : Trace.Holds Conforms s.log) (toRemove : UInt32) :
    Trace.Holds Conforms (s.removeRoute toRemove).log := by
  unfold Client.removeRoute
  split
  · refine Holds.free h fun past ev hev => ?_
    rw [List.mem_singleton.1 hev]
    trivial
  · exact h

theorem runOk_attemptStep (hflavor : params.flavor = .None) (h : RunOk s) (xidBe : UInt32)
    (attempt : UInt8) : RunOk (s.attemptStep params sender a xidBe attempt) := by
  unfold Client.attemptStep
  split
  · exact ⟨h.conforms, trivial⟩
  · have hsent := sentEvents_plain sender hflavor (emitDhcpDiscover xidBe)
    refine ⟨?_, ?_⟩
    · change Trace.Holds Conforms (s.log ++ _)
      rw [hsent]
      exact h.conforms.concat trivial
    · change (lastSent .Discover (s.log ++ _)).map wireXidBe = some xidBe
      rw [hsent, lastSent, Trace.last_concat_some (by rfl)]
      exact congrArg some (wireXidBe_plainFrame sender _)

theorem runOk_offerWaitStep (hflavor : params.flavor = .None)
    (hbehavior : params.behaviorFlavor = .None) (h : RunOk s) {xidBe : UInt32} {attempt : UInt8}
    (hpoint : s.point = .offerWait xidBe attempt) (hok : StepOk params sender s a) :
    RunOk (s.offerWaitStep params sender a xidBe attempt) := by
  have hxid : (lastSent .Discover s.log).map wireXidBe = some xidBe := by
    have := h.point
    rwa [PointOk, hpoint] at this
  rw [StepOk, hpoint] at hok
  unfold Client.offerWaitStep
  rcases hpoll : pollForReply (Client.gate params sender xidBe kDhcpOffer) a.datagrams with _ | offer
  · exact ⟨h.conforms, trivial⟩
  have hoffer : Trace.Holds Conforms (s.log ++ [.offered offer]) := h.conforms.concat trivial
  dsimp only
  by_cases hstop : a.stopRequested = true
  · rw [if_pos hstop]
    exact ⟨hoffer, trivial⟩
  rw [if_neg hstop]
  obtain ⟨hyiaddr, hserver⟩ := hok offer hpoll (Bool.eq_false_iff.2 hstop)
  have hsent := sentEvents_plain sender hflavor
    (emitDhcpRequest xidBe offer.yiaddrBe offer.serverIdBe)
  have htype := msgType_of_pollForReply hbehavior (show kDhcpOffer ≠ 0 by decide) hpoll
  have hoptions := wireOption_plainFrame sender
    (emitDhcpRequest xidBe offer.yiaddrBe offer.serverIdBe)
  have h50 := hoptions.1.trans (if_pos hyiaddr)
  have h54 := hoptions.2.trans (if_pos hserver)
  refine ⟨?_, ?_⟩
  · change Trace.Holds Conforms (s.log ++ [.offered offer] ++ _)
    rw [hsent]
    refine hoffer.concat ⟨?_, offer, Trace.last_concat_some rfl, htype, h50, h54⟩
    rw [lastSent, Trace.last_concat_none rfl, ← lastSent, hxid, wireXidBe_plainFrame]
    rfl
  · change (lastSent .Selecting (s.log ++ [.offered offer] ++ _)).bind (wireOption · 50) = _
    rw [hsent, lastSent, Trace.last_concat_some (by rfl)]
    exact h50

/-- A client that binds holds the lease of the ACK. -/
theorem holdsLease_bind (ack : Reply) :
    HoldsLease (s.bind a ack).log ack.yiaddrBe ack.serverIdBe ∧
      (s.bind a ack).committedLeaseBe = ack.yiaddrBe := by
  have hbound := holdsLease_bound s.log ack
  unfold Client.bind
  dsimp only
  split
  · refine ⟨hbound.append fun ev hev => ?_, rfl⟩
    rw [List.mem_singleton.1 hev]
    rfl
  · exact ⟨hbound, rfl⟩

theorem conforms_bind {ack : Reply} (h : Trace.Holds Conforms s.log)
    (hack : Conforms s.log (.bound ack)) : Trace.Holds Conforms (s.bind a ack).log := by
  unfold Client.bind
  dsimp only
  split
  · exact (h.concat hack).concat trivial
  · exact h.concat hack

theorem runOk_ackWaitStep (hbehavior : params.behaviorFlavor = .None) (h : RunOk s) {xidBe : UInt32}
    {attempt : UInt8} {offer : Reply} (hpoint : s.point = .ackWait xidBe attempt offer)
    (hok : StepOk params sender s a) : RunOk (s.ackWaitStep params sender a xidBe attempt) := by
  have hrequested : (lastSent .Selecting s.log).bind (wireOption · 50) =
      some (bytes32 offer.yiaddrBe) := by
    have := h.point
    rwa [PointOk, hpoint] at this
  rw [StepOk, hpoint] at hok
  unfold Client.ackWaitStep
  rcases hpoll : pollForReply (Client.gate params sender xidBe kDhcpAck) a.datagrams with _ | ack
  · exact ⟨h.conforms, trivial⟩
  dsimp only
  by_cases hstop : a.stopRequested = true
  · rw [if_pos hstop]
    exact ⟨h.conforms, trivial⟩
  rw [if_neg hstop]
  obtain ⟨hyiaddr, hserver⟩ := hok ack hpoll (Bool.eq_false_iff.2 hstop)
  have htype := msgType_of_pollForReply hbehavior (show kDhcpAck ≠ 0 by decide) hpoll
  refine ⟨conforms_bind h.conforms ⟨htype, by rw [hyiaddr, hrequested]⟩, ?_⟩
  obtain ⟨hlease, hcommitted⟩ := holdsLease_bind (s := s) (a := a) ack
  exact ⟨hcommitted, hlease, hserver⟩

/-- A step that notes nothing but ARP or route events and keeps the lease. -/
theorem runOk_boundStep (h : RunOk s) {xidBe : UInt32} {ack : Reply}
    (hpoint : s.point = .bound xidBe ack) : RunOk (s.boundStep params a xidBe ack) := by
  have hold := h.point
  rw [PointOk, hpoint] at hold
  unfold Client.boundStep
  dsimp only
  split
  · refine ⟨h.conforms.concat trivial, hold.1, hold.2.1.append fun ev hev => ?_, hold.2.2⟩
    rw [List.mem_singleton.1 hev]
    rfl
  · exact ⟨h.conforms, hold⟩

theorem runOk_probeStep (hflavor : params.flavor = .None) (h : RunOk s) {xidBe : UInt32} {ack : Reply}
    (hpoint : s.point = .probe xidBe ack) : RunOk (s.probeStep params sender a xidBe ack) := by
  have hold := h.point
  rw [PointOk, hpoint] at hold
  unfold Client.probeStep
  dsimp only
  split
  swap
  · exact ⟨h.conforms, hold⟩
  -- The probe itself leaves the log conforming and the lease as it was.
  have hprobed : ∀ s', s' = (if a.arpSocketOpens then s.note [.arpProbe ack.yiaddrBe] else s) →
      Trace.Holds Conforms s'.log ∧ HoldsLease s'.log ack.yiaddrBe ack.serverIdBe ∧
        s'.committedLeaseBe = ack.yiaddrBe := by
    rintro s' rfl
    split
    · refine ⟨h.conforms.concat trivial, hold.2.1.append fun ev hev => ?_, hold.1⟩
      rw [List.mem_singleton.1 hev]
      rfl
    · exact ⟨h.conforms, hold.2.1, hold.1⟩
  obtain ⟨hconforms, hlease, hcommitted⟩ := hprobed _ rfl
  split
  · refine ⟨?_, trivial⟩
    change Trace.Holds Conforms (_ ++ Client.sentEvents params sender _)
    rw [sentEvents_plain sender hflavor]
    exact hconforms.concat trivial
  · refine ⟨hconforms.concat trivial, hcommitted, hlease.append fun ev hev => ?_, hold.2.2⟩
    rw [List.mem_singleton.1 hev]
    rfl

theorem runOk_armStep (h : RunOk s) {xidBe : UInt32} {ack : Reply}
    (hpoint : s.point = .arm xidBe ack) : RunOk (s.armStep params a xidBe ack) := by
  have hold := h.point
  rw [PointOk, hpoint] at hold
  obtain ⟨hcommitted, hlease, hserver⟩ := hold
  unfold Client.armStep
  split
  · exact ⟨h.conforms, trivial⟩
  · rename_i hfinite
    refine ⟨h.conforms, ?_, hserver.resolve_right hfinite⟩
    change HoldsLease s.log s.committedLeaseBe ack.serverIdBe
    rw [hcommitted]
    exact hlease

/-- A REQUEST of the phase machine asks for the lease of its binding. -/
theorem conforms_request {log : List Event} {binding : Binding} {state : PhaseState}
    (hlease : HoldsLease log binding.clientAddrBe state.serverIdBe) (hserver : state.serverIdBe ≠ 0)
    {m : DhcpEmitSpec}
    (hm : m = state.renewingRequest binding ∨ m = PhaseState.rebindingRequest binding) :
    Conforms log (.sent m.phase (m.plainFrame sender)) := by
  have hasks : m.ciaddrBe = binding.clientAddrBe → m.requestedAddrBe = 0 → m.serverIdBe = 0 →
      AsksForLease log (m.plainFrame sender) := by
    intro hciaddr hrequested hsid
    have hoptions := wireOption_plainFrame sender m
    refine ⟨?_, hoptions.1.trans (if_neg (not_not.2 hrequested)),
      hoptions.2.trans (if_neg (not_not.2 hsid))⟩
    rw [wireCiaddrBe_plainFrame, hciaddr]
    exact hlease.lease
  have hdst := wireDstBe_plainFrame sender m
  rcases hm with rfl | rfl
  · have hto : wireDstBe ((state.renewingRequest binding).plainFrame sender) = state.serverIdBe := hdst
    refine ⟨?_, ?_, hasks rfl rfl rfl⟩
    · rw [hto]
      exact hlease.server
    · rw [hto]
      exact hserver
  · exact ⟨hdst, hasks rfl rfl rfl⟩

theorem runOk_phaseStep (hflavor : params.flavor = .None) (h : RunOk s) {binding : Binding}
    {state : PhaseState} (hpoint : s.point = .phase binding state) :
    RunOk (s.phaseStep params sender a binding state) := by
  have hold := h.point
  rw [PointOk, hpoint] at hold
  obtain ⟨hlease, hserver⟩ := hold
  unfold Client.phaseStep
  split
  · exact ⟨h.conforms, trivial⟩
  dsimp only
  generalize (pollForReply (Client.gate params sender binding.xidBe 0) a.datagrams).map
    (·, a.rearmed) = reply
  -- Every event of the turn is a REQUEST for the lease, whichever of them came before it.
  have hevents : ∀ ev ∈ (state.turn binding a.now reply).2.flatMap (Client.sentEvents params sender),
      ∃ m, (m = state.renewingRequest binding ∨ m = PhaseState.rebindingRequest binding) ∧
        ev = .sent m.phase (m.plainFrame sender) := by
    intro ev hev
    obtain ⟨m, hm, hsent⟩ := List.mem_flatMap.1 hev
    rw [sentEvents_plain sender hflavor] at hsent
    exact ⟨m, PhaseState.turn_messages hm, List.mem_singleton.1 hsent⟩
  have hkeeps : ∀ ev ∈ (state.turn binding a.now reply).2.flatMap (Client.sentEvents params sender),
      ev.keepsLease = true := by
    intro ev hev
    obtain ⟨m, -, rfl⟩ := hevents ev hev
    rfl
  have hconforms : Trace.Holds Conforms
      (s.log ++ (state.turn binding a.now reply).2.flatMap (Client.sentEvents params sender)) := by
    refine h.conforms.append fun past hpast ev hev => ?_
    obtain ⟨m, hm, rfl⟩ := hevents ev hev
    exact conforms_request (hlease.append fun ev hev => hkeeps ev (hpast.subset hev)) hserver hm
  have hlease' := hlease.append hkeeps
  rcases hnext : (state.turn binding a.now reply).1 with _ | state'
  · exact ⟨hconforms, trivial⟩
  · rcases PhaseState.turn_serverIdBe hnext with ⟨hsame, hnone⟩ | ⟨r, hrenewed, hsid⟩
    · dsimp only
      rw [hnone]
      have hnil : ∀ log : List Event, log ++ [] = log := List.append_nil
      refine ⟨?_, ?_, by rwa [hsame]⟩
      · change Trace.Holds Conforms (_ ++ [])
        rwa [hnil]
      · change HoldsLease (_ ++ []) _ _
        rw [hnil, hsame]
        exact hlease'
    · dsimp only
      rw [hrenewed]
      refine ⟨hconforms.concat trivial, ?_, ?_⟩
      · rw [hsid]
        exact hlease'.renewed r
      · rw [hsid]
        split
        · assumption
        · exact hserver

/-- **Step lemma**: a step that meets the condition keeps the invariant. -/
theorem runOk_step (hflavor : params.flavor = .None) (hbehavior : params.behaviorFlavor = .None)
    (h : RunOk s) (hok : StepOk params sender s a) : RunOk (s.step params sender a) := by
  unfold Client.step
  rcases hpoint : s.point with _ | ⟨x, n⟩ | ⟨x, n⟩ | ⟨x, n, o⟩ | ⟨x, r⟩ | ⟨x, r⟩ | ⟨x, r⟩ | ⟨b, st⟩ |
    _ | ⟨g⟩ | _ | _ | _
  case init =>
    dsimp only
    split <;> exact ⟨h.conforms, trivial⟩
  case attempt => exact runOk_attemptStep hflavor h x n
  case offerWait => exact runOk_offerWaitStep hflavor hbehavior h hpoint hok
  case ackWait => exact runOk_ackWaitStep hbehavior h hpoint hok
  case bound => exact runOk_boundStep h hpoint
  case probe => exact runOk_probeStep hflavor h hpoint
  case arm => exact runOk_armStep h hpoint
  case phase => exact runOk_phaseStep hflavor h hpoint
  case restart => exact ⟨conforms_clear h.conforms, trivial⟩
  case unroute => exact ⟨conforms_removeRoute h.conforms g, trivial⟩
  case parked =>
    dsimp only
    split
    · exact ⟨h.conforms, trivial⟩
    · exact h
  case idle =>
    dsimp only
    split
    · exact ⟨h.conforms, trivial⟩
    · exact h
  case done => exact h

/-- **Run lemma.** -/
theorem runOk_foldl (hflavor : params.flavor = .None) (hbehavior : params.behaviorFlavor = .None)
    {answers : List Answers} (h : RunOk s) (hok : StepsOk params sender s answers) :
    RunOk (answers.foldl (fun s a => s.step params sender a) s) := by
  induction answers generalizing s with
  | nil => exact h
  | cons a answers ih => exact ih (runOk_step hflavor hbehavior h hok.1) hok.2

private theorem stepsOk_foldl {answers : List Answers} (h : StepsOk params sender s answers)
    (hlast : StepOk params sender (answers.foldl (fun s a => s.step params sender a) s) a) :
    StepsOk params sender s (answers ++ [a]) := by
  induction answers generalizing s with
  | nil => exact ⟨hlast, trivial⟩
  | cons _ answers ih => exact ⟨h.1, ih h.2 hlast⟩

theorem stepsOk_concat {answers : List Answers} (h : StepsOk params sender {} answers)
    (hlast : StepOk params sender (Client.run params sender answers) a) :
    StepsOk params sender {} (answers ++ [a]) := stepsOk_foldl h hlast

end Step

/-- **Acquisition conforms** in every run whose OFFERs and ACKs meet the condition. -/
theorem acquisition_conforms (params : Params) (sender : Sender) (hflavor : params.flavor = .None)
    (hbehavior : params.behaviorFlavor = .None) (answers : List Answers)
    (hok : StepsOk params sender {} answers) :
    Trace.Holds Conforms (Client.run params sender answers).log := by
  have hstart : RunOk ({} : Client) := ⟨Trace.holds_nil, trivial⟩
  exact (runOk_foldl hflavor hbehavior hstart hok).conforms

/-- A reply to a client with the MAC 02:00:00:00:00:01 and the transaction id 1, from 10.0.0.1 and with a
lease of 60 s. -/
def sampleReply (msgType : UInt8) (yiaddr : List UInt8) : List UInt8 :=
  [2, 1, 6, 0] ++ [0, 0, 0, 1] ++ List.replicate 8 0 ++ yiaddr ++ List.replicate 8 0 ++
    [2, 0, 0, 0, 0, 1] ++ List.replicate 202 0 ++ [0x63, 0x82, 0x53, 0x63] ++
    [53, 1, msgType, 54, 4, 10, 0, 0, 1, 51, 4, 0, 0, 0, 60, 255]

def sampleSender : Sender := ⟨#[2, 0, 0, 0, 0, 1].toVector, none⟩

/-- The world up to an OFFER of 10.0.0.7. -/
def offerAnswers : List Answers := [{}, {}, { datagrams := [sampleReply 2 [10, 0, 0, 7]] }]

/-- The same and an ACK. -/
def sampleAnswers (ackYiaddr : List UInt8) : List Answers :=
  offerAnswers ++ [{ datagrams := [sampleReply 5 ackYiaddr] }]

theorem acquisition_conforms_seven :
    Trace.Holds Conforms (Client.run {} sampleSender (sampleAnswers [10, 0, 0, 7])).log ∧
      leaseOf (Client.run {} sampleSender (sampleAnswers [10, 0, 0, 7])).log = some 0x0700000A := by
  refine ⟨acquisition_conforms {} sampleSender rfl rfl _
    (stepsOk_concat ⟨trivial, trivial, ?_, trivial⟩ ?_), by decide +kernel⟩
  · have hpoll : pollForReply (Client.gate {} sampleSender (htonl 1) kDhcpOffer)
        [sampleReply 2 [10, 0, 0, 7]] = some ⟨0x0700000A, 0x0100000A, 60, 2, 0⟩ := by decide +kernel
    intro offer hoffer _
    obtain rfl := Option.some_inj.1 (hpoll.symm.trans hoffer)
    decide
  · have hpoll : pollForReply (Client.gate {} sampleSender (htonl 1) kDhcpAck)
        [sampleReply 5 [10, 0, 0, 7]] = some ⟨0x0700000A, 0x0100000A, 60, 5, 0⟩ := by decide +kernel
    have hpoint : (Client.run {} sampleSender offerAnswers).point =
        .ackWait (htonl 1) 0 ⟨0x0700000A, 0x0100000A, 60, 2, 0⟩ := by decide +kernel
    rw [StepOk, hpoint]
    intro ack hack _
    obtain rfl := Option.some_inj.1 (hpoll.symm.trans hack)
    decide

/-- The client asks for 10.0.0.7 and binds the 10.0.0.9 of the ACK. -/
theorem not_conforms_nine :
    ¬ Trace.Holds Conforms (Client.run {} sampleSender (sampleAnswers [10, 0, 0, 9])).log := by
  intro h
  have hbound := h ((Client.run {} sampleSender (sampleAnswers [10, 0, 0, 9])).log.take 3)
    (.bound ⟨0x0900000A, 0x0100000A, 60, 5, 0⟩) [] (by decide +kernel)
  exact absurd hbound.2 (by decide +kernel)

end Tc8Harness.Dut
