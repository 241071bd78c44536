import Tc8Harness.Testability.Server

/-!
# What a request can do

The primitives that reach the server's tables, and what `dispatch` does for them. Every other request
leaves the tables alone and calls the backend for nothing but the primitive itself (`dispatch_spec`).
A step is a request served (`step_of_request`) or one of the other handlers (`step_of_no_request`).
The invariants of the later modules are proved per case of these.
-/

namespace Tc8Harness.Testability

open Someip

/-! ## Primitives -/

/-- The primitives that change a table, send on a stream socket or answer for one. -/
inductive Primitive where
  | endTest
  | createAndBind (tcp : Bool)
  | connect
  | listenAndAccept
  | sendDataTcp
  | closeSocket
  | shutdown
  | receiveAndForward (udp : Bool)
  | other
  deriving DecidableEq, Repr

def primitiveOf (gid pid : UInt8) : Primitive :=
  if gid = kGidGeneral then if pid = kPidEndTest then .endTest else .other
  else if gid = kGidUdp then
    if pid = kPidCreateAndBind then .createAndBind false
    else if pid = kPidCloseSocket then .closeSocket
    else if pid = kPidShutdown then .shutdown
    else if pid = kPidReceiveAndForward then .receiveAndForward true
    else .other
  else if gid = kGidTcp then
    if pid = kPidCreateAndBind then .createAndBind true
    else if pid = kPidConnect then .connect
    else if pid = kPidListenAndAccept then .listenAndAccept
    else if pid = kPidSendData then .sendDataTcp
    else if pid = kPidCloseSocket then .closeSocket
    else if pid = kPidShutdown then .shutdown
    else if pid = kPidReceiveAndForward then .receiveAndForward false
    else .other
  else .other

def Request.primitive (req : Request) : Primitive :=
  primitiveOf (gidOf req.header.methodId) (pidOf req.header.methodId)

/-- Calls that open and close no descriptor, send on no stream socket and say nothing to the tester. -/
def Action.Plain : Action → Prop
  | .createUdp _ | .createTcp _ | .accept _ _ | .closeFd _ | .closeWithAbort _ | .send .. |
    .response .. | .event .. => False
  | _ => True

/-- Calls that touch no stream socket and no descriptor's mode: what the primitives without a table
entry of their own make. -/
def Action.Passive : Action → Prop
  | .sendToV4 .. | .configureOption .. | .sendIcmpEcho .. | .sendIcmpv6Echo .. | .setInterfaceUp .. |
    .setStaticAddressV4 .. | .setStaticRouteV4 .. | .setStaticAddressV6 .. | .setStaticRouteV6 .. => True
  | _ => False

theorem Action.Passive.plain {action : Action} (h : action.Passive) : action.Plain := by
  cases action <;> trivial

namespace ProtocolServer

variable {s : ProtocolServer} {a : Answers}

/-- Only the log has grown, by plain calls. -/
def Quiet (s s' : ProtocolServer) : Prop :=
  ∃ acts : List Action, (∀ act ∈ acts, act.Plain) ∧ s' = { s with log := s.log ++ acts }

theorem Quiet.refl (s : ProtocolServer) : Quiet s s := ⟨[], nofun, by simp⟩

theorem Quiet.act (s : ProtocolServer) {action : Action} (h : action.Plain) :
    Quiet s (s.act action) := ⟨[action], by simpa using h, rfl⟩

theorem Quiet.trans {s₁ s₂ s₃ : ProtocolServer} (h₁ : Quiet s₁ s₂) (h₂ : Quiet s₂ s₃) :
    Quiet s₁ s₃ := by
  obtain ⟨acts₁, hp₁, rfl⟩ := h₁
  obtain ⟨acts₂, hp₂, rfl⟩ := h₂
  refine ⟨acts₁ ++ acts₂, ?_, by simp⟩
  intro act hmem
  rcases List.mem_append.mp hmem with h | h
  · exact hp₁ act h
  · exact hp₂ act h

/-- Only the log has grown, by passive calls. -/
def Passes (s s' : ProtocolServer) : Prop :=
  ∃ acts : List Action, (∀ act ∈ acts, act.Passive) ∧ s' = { s with log := s.log ++ acts }

theorem Passes.refl (s : ProtocolServer) : Passes s s := ⟨[], nofun, by simp⟩

theorem Passes.act (s : ProtocolServer) {action : Action} (h : action.Passive) :
    Passes s (s.act action) := ⟨[action], by simpa using h, rfl⟩

theorem Passes.quiet {s' : ProtocolServer} (h : Passes s s') : Quiet s s' := by
  obtain ⟨acts, hpassive, rfl⟩ := h
  exact ⟨acts, fun act hact => (hpassive act hact).plain, rfl⟩

/-! ## Handlers that only call the backend -/

theorem sendDataUdp_passes (dat : List UInt8) : Passes s (s.sendDataUdp a dat).1 := by
  unfold sendDataUdp
  split
  · exact .refl s
  · split
    · exact .refl s
    · exact .act s trivial

theorem configureSocket_passes (dat : List UInt8) : Passes s (s.configureSocket a dat).1 := by
  unfold configureSocket
  split
  · exact .refl s
  · split
    · exact .refl s
    · exact .act s trivial

theorem echoRequest_passes (dat : List UInt8) : Passes s (s.echoRequest a dat).1 := by
  unfold echoRequest
  split
  · exact .refl s
  · exact .act s trivial

theorem echoRequestV6_passes (dat : List UInt8) : Passes s (s.echoRequestV6 a dat).1 := by
  unfold echoRequestV6
  split
  · exact .refl s
  · exact .act s trivial

theorem setInterface_passes (dat : List UInt8) (up : Bool) : Passes s (s.setInterface a dat up).1 := by
  unfold setInterface
  split
  · exact .refl s
  · exact .act s trivial

theorem staticAddress_passes (dat : List UInt8) : Passes s (s.staticAddress a dat).1 := by
  unfold staticAddress
  split
  · exact .refl s
  · exact .act s trivial

theorem staticRoute_passes (dat : List UInt8) : Passes s (s.staticRoute a dat).1 := by
  unfold staticRoute
  split
  · exact .refl s
  · exact .act s trivial

theorem staticAddressV6_passes (dat : List UInt8) : Passes s (s.staticAddressV6 a dat).1 := by
  unfold staticAddressV6
  split
  · exact .refl s
  · exact .act s trivial

theorem staticRouteV6_passes (dat : List UInt8) : Passes s (s.staticRouteV6 a dat).1 := by
  unfold staticRouteV6
  split
  · exact .refl s
  · exact .act s trivial

/-! ## Dispatch -/

/-- The handler of each primitive with what it answers; the others only answer. -/
def perform (s : ProtocolServer) (a : Answers) (req : Request) : Primitive →
    ProtocolServer × UInt8 × List UInt8
  | .endTest => (s.stopAllWorkers.closeAllSockets, kRidEOk, [])
  | .createAndBind tcp => s.respondCreateAndBind a tcp req.dat
  | .connect => noDat (s.connectTcp a req.dat req.header.serviceId req.peer)
  | .listenAndAccept => noDat (s.listenAndAcceptTcp a req.dat req.header.serviceId req.peer)
  | .sendDataTcp => noDat (s.sendDataTcp a req.dat)
  | .closeSocket => noDat (s.closeSocket req.dat)
  | .shutdown => noDat (s.shutdownSocket a req.dat)
  | .receiveAndForward udp => s.receiveAndForward a req.dat req.header.serviceId req.peer udp
  | .other => s.dispatch a req.header req.dat req.peer

/-- A result of dispatch: the primitive's handler, or nothing but passive calls. -/
def DispatchCases (s : ProtocolServer) (a : Answers) (req : Request) (p : Primitive)
    (result : ProtocolServer × UInt8 × List UInt8) : Prop :=
  (p = .other ∧ Passes s result.1) ∨ (p ≠ .other ∧ result = s.perform a req p)

/-- The same with plain calls. -/
def DispatchSpec (s : ProtocolServer) (a : Answers) (req : Request) (p : Primitive)
    (result : ProtocolServer × UInt8 × List UInt8) : Prop :=
  (p = .other ∧ Quiet s result.1) ∨ (p ≠ .other ∧ result = s.perform a req p)

theorem dispatchGeneral_cases (req : Request) (pid : UInt8) :
    DispatchCases s a req (primitiveOf kGidGeneral pid) (s.dispatchGeneral pid) := by
  unfold dispatchGeneral
  split
  · next h => exact .inl ⟨by rw [h]; rfl, .refl s⟩
  split
  · next h => exact .inl ⟨by rw [h]; rfl, .refl s⟩
  split
  · next h => exact .inr ⟨by rw [h]; decide, by rw [h]; rfl⟩
  · next h => exact .inl ⟨by rw [primitiveOf, if_pos rfl, if_neg h], .refl s⟩

theorem dispatchUdp_cases (req : Request) (pid : UInt8) :
    DispatchCases s a req (primitiveOf kGidUdp pid)
      (s.dispatchUdp a pid req.dat req.header.serviceId req.peer) := by
  unfold dispatchUdp
  split
  · next h => exact .inr ⟨by rw [h]; decide, by rw [h]; rfl⟩
  next hcreate =>
  split
  · next h => exact .inl ⟨by rw [h]; rfl, sendDataUdp_passes req.dat⟩
  split
  · next h => exact .inr ⟨by rw [h]; decide, by rw [h]; rfl⟩
  next hclose =>
  split
  · next h => exact .inr ⟨by rw [h]; decide, by rw [h]; rfl⟩
  next hshutdown =>
  split
  · next h => exact .inr ⟨by rw [h]; decide, by rw [h]; rfl⟩
  next hforward =>
  have hother : primitiveOf kGidUdp pid = .other := by
    rw [primitiveOf, if_neg (by decide), if_pos rfl, if_neg hcreate, if_neg hclose,
      if_neg hshutdown, if_neg hforward]
  split
  · exact .inl ⟨hother, configureSocket_passes req.dat⟩
  · exact .inl ⟨hother, .refl s⟩

theorem dispatchTcp_cases (req : Request) (pid : UInt8) :
    DispatchCases s a req (primitiveOf kGidTcp pid)
      (s.dispatchTcp a pid req.dat req.header.serviceId req.peer) := by
  unfold dispatchTcp
  split
  · next h => exact .inr ⟨by rw [h]; decide, by rw [h]; rfl⟩
  next hcreate =>
  split
  · next h => exact .inr ⟨by rw [h]; decide, by rw [h]; rfl⟩
  next hconnect =>
  split
  · next h => exact .inr ⟨by rw [h]; decide, by rw [h]; rfl⟩
  next hlisten =>
  split
  · next h => exact .inr ⟨by rw [h]; decide, by rw [h]; rfl⟩
  next hsend =>
  split
  · next h => exact .inr ⟨by rw [h]; decide, by rw [h]; rfl⟩
  next hclose =>
  split
  · next h => exact .inr ⟨by rw [h]; decide, by rw [h]; rfl⟩
  next hshutdown =>
  split
  · next h => exact .inr ⟨by rw [h]; decide, by rw [h]; rfl⟩
  next hforward =>
  have hother : primitiveOf kGidTcp pid = .other := by
    rw [primitiveOf, if_neg (by decide), if_neg (by decide), if_pos rfl, if_neg hcreate,
      if_neg hconnect, if_neg hlisten, if_neg hsend, if_neg hclose, if_neg hshutdown,
      if_neg hforward]
  split
  · exact .inl ⟨hother, configureSocket_passes req.dat⟩
  · exact .inl ⟨hother, .refl s⟩

theorem dispatch_cases (s : ProtocolServer) (a : Answers) (req : Request) :
    DispatchCases s a req req.primitive (s.dispatch a req.header req.dat req.peer) := by
  unfold dispatch Request.primitive
  generalize gidOf req.header.methodId = gid
  generalize pidOf req.header.methodId = pid
  simp only
  split
  · next h => rw [h]; exact dispatchGeneral_cases req pid
  next hgeneral =>
  split
  · next h => rw [h]; exact dispatchUdp_cases req pid
  next hudp =>
  split
  · next h => rw [h]; exact dispatchTcp_cases req pid
  next htcp =>
  have hother : primitiveOf gid pid = .other := by
    rw [primitiveOf, if_neg hgeneral, if_neg hudp, if_neg htcp]
  refine .inl ⟨hother, ?_⟩
  split
  · exact echoRequest_passes req.dat
  split
  · exact echoRequestV6_passes req.dat
  split
  · exact staticAddress_passes req.dat
  split
  · exact staticRoute_passes req.dat
  split
  · exact staticAddressV6_passes req.dat
  split
  · exact staticRouteV6_passes req.dat
  split
  · exact setInterface_passes req.dat true
  split
  · exact setInterface_passes req.dat false
  · exact .refl s

/-- **What a request does.** Either it is one of the primitives above and its handler runs, or only
plain calls are made. -/
theorem dispatch_spec (s : ProtocolServer) (a : Answers) (req : Request) :
    DispatchSpec s a req req.primitive (s.dispatch a req.header req.dat req.peer) :=
  (dispatch_cases s a req).imp (And.imp_right Passes.quiet) id

/-! ## Steps -/

/-- The request a step serves, if it is the control socket's and a request arrived. -/
def request (s : ProtocolServer) (i : Input) : Option Request :=
  if s.fires i.trigger = some .onControlReadable then
    i.answers.recvFromV4.bind fun received => requestOf received.1 received.2
  else none

/-- The state in which the handler of a step runs. -/
def entered (s : ProtocolServer) (i : Input) : ProtocolServer := s.prepare i.answers.now i.trigger

theorem step_of_request {i : Input} {req : Request} (h : s.request i = some req) :
    s.step i = ((s.entered i).act (.recvFromV4 s.fd)).serve i.answers req := by
  unfold request at h
  split at h
  · next hfires =>
    obtain ⟨received, hreceived, hreq⟩ := Option.bind_eq_some_iff.mp h
    have hfd : (s.prepare i.answers.now i.trigger).fd = s.fd := by
      cases i.trigger <;> rfl
    simp only [step, hfires, runHandler, onControlReadable, hreceived, hreq, entered, hfd]
  · nomatch h

/-- A step that serves no request: nothing, a read of the control socket, or another handler. -/
theorem step_of_no_request {i : Input} (h : s.request i = none) :
    (s.fires i.trigger = none ∧ s.step i = s) ∨
    (s.fires i.trigger = some .onControlReadable ∧ Quiet (s.entered i) (s.step i)) ∨
    (∃ id, s.fires i.trigger = some (.onWorkerReadable id) ∧
      s.step i = (s.entered i).onWorkerReadable i.answers id) ∨
    (∃ id, s.fires i.trigger = some (.onConnectWritable id) ∧
      s.step i = (s.entered i).onConnectWritable i.answers id) ∨
    (∃ id, s.fires i.trigger = some (.reportFailedConnect id) ∧
      s.step i = (s.entered i).reportFailedConnect id) := by
  cases hfires : s.fires i.trigger with
  | none => exact .inl ⟨rfl, by rw [step, hfires]⟩
  | some handler =>
    refine .inr ?_
    have hstep : s.step i = (s.entered i).runHandler i.answers handler := by rw [step, hfires]; rfl
    cases handler with
    | onControlReadable =>
      refine .inl ⟨rfl, ?_⟩
      rw [request, if_pos hfires] at h
      rw [hstep, runHandler, onControlReadable]
      cases hreceived : i.answers.recvFromV4 with
      | none => exact .act _ trivial
      | some received =>
        rw [hreceived, Option.bind_some] at h
        simp only [h]
        exact .act _ trivial
    | onWorkerReadable id => exact .inr (.inl ⟨id, rfl, hstep⟩)
    | onConnectWritable id => exact .inr (.inr (.inl ⟨id, rfl, hstep⟩))
    | reportFailedConnect id => exact .inr (.inr (.inr ⟨id, rfl, hstep⟩))

end ProtocolServer

/-! ## A request as an input -/

/-- A request on the control socket. -/
def requestInput (gid pid : UInt8) (dat : List UInt8) (a : Answers) : Input :=
  ⟨.watch 1, { a with recvFromV4 := some (buildMessage { methodId := methodId gid pid } dat, {}) }⟩

/-- The request the server makes of it. -/
def requestMade (gid pid : UInt8) (dat : List UInt8) : Request :=
  ⟨{ methodId := methodId gid pid, length := 8 + UInt32.ofNat dat.length }, dat, {}⟩

/-- A message within the control buffer is a request as it was built. -/
theorem requestOf_buildMessage {h : Header} {dat : List UInt8} (htid : h.tid = kTidRequest)
    (hfit : dat.length ≤ 2032) (peer : Endpoint) :
    requestOf (buildMessage h dat) peer =
      some ⟨{ h with length := 8 + UInt32.ofNat dat.length }, dat, peer⟩ := by
  have htake : (buildMessage h dat).take 2048 = buildMessage h dat :=
    List.take_of_length_le (by rw [length_buildMessage, kHeaderSize]; omega)
  rw [requestOf, if_neg (by rw [length_buildMessage]; omega)]
  simp only [htake, parseHeader_buildMessage, drop_buildMessage, htid]
  rfl

namespace ProtocolServer
variable {s : ProtocolServer} {a : Answers}

theorem request_requestInput (hfires : s.fires (.watch 1) = some .onControlReadable) (gid pid : UInt8)
    {dat : List UInt8} (hfit : dat.length ≤ 2032) (a : Answers) :
    s.request (requestInput gid pid dat a) = some (requestMade gid pid dat) := by
  rw [request, requestInput, if_pos hfires]
  exact requestOf_buildMessage rfl hfit {}

/-- The step of a request: the read, the primitive's handler and the Response. -/
theorem step_requestInput (hfires : s.fires (.watch 1) = some .onControlReadable) (gid pid : UInt8)
    {dat : List UInt8} (hfit : dat.length ≤ 2032) (a : Answers)
    (hother : (requestMade gid pid dat).primitive ≠ .other) :
    ∃ response, s.step (requestInput gid pid dat a) =
      (((s.act (.recvFromV4 s.fd)).perform (requestInput gid pid dat a).answers
        (requestMade gid pid dat) (requestMade gid pid dat).primitive).1).act response := by
  have hstep := step_of_request (request_requestInput hfires gid pid hfit a)
  rw [serve] at hstep
  rcases dispatch_spec ((s.entered (requestInput gid pid dat a)).act (.recvFromV4 s.fd))
    (requestInput gid pid dat a).answers (requestMade gid pid dat) with ⟨hprim, -⟩ | ⟨-, hperform⟩
  · exact absurd hprim hother
  · rw [hperform] at hstep
    exact ⟨_, hstep⟩

end ProtocolServer

end Tc8Harness.Testability
