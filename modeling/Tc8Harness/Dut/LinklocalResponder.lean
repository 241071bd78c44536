import Tc8Harness.Dut.LinklocalAutoconf

/-!
# The responder of link-local autoconfiguration

`dut/dut_service/linklocal_autoconf.cpp` with flavor `None`, the third thread included: `runArpResponder`,
which answers ARP Requests for the claimed address and raises `cease_requested_` on a conflict with it, and
what `runLoop` does to start and stop it. A `Host` is the state of the worker and its conflict listener with
the responder beside them; a step is again one atomic access or one system call of one thread.

Where `workerStep` tests `cease_requested_` and sends an Announce in one step, the host takes two: the
responder can raise the flag between them. `log` records what happens, the oldest first; the program does
not read it.
-/

namespace Tc8Harness.Dut.Linklocal

open Wire

/-! ## The log -/

inductive Event where
  /-- A claim attempt begins: `runLoop` is at the head of its outer loop. -/
  | attempt
  /-- The worker gives an address up and counts the conflict. -/
  | abandoned
  | picked (address : UInt32)
  | probe (address : UInt32)
  /-- The listener records a conflict. -/
  | conflict (address : UInt32)
  | committed (address : UInt32)
  | announce (address : UInt32)
  /-- The responder has processed a conflicting ARP. -/
  | challenged (address : UInt32)
  | reply (address : UInt32)
  deriving DecidableEq, Repr

structure Entry where
  at_ : Nat
  event : Event
  deriving DecidableEq, Repr

/-! ## The responder's frames -/

inductive Heard where
  | nothing
  | challenge
  | request (senderIp : UInt32) (senderHw : List UInt8)
  deriving DecidableEq, Repr

/-- What `runArpResponder` makes of the bytes it received. -/
def hear (dutMac : List UInt8) (committed : UInt32) (buf : List UInt8) : Heard :=
  if buf.length < kEthArpLen then .nothing
  else
    let opcode := readBe16 buf 20
    let senderHw := (buf.drop 22).take 6
    let senderIp := copy32 buf 28
    let targetIp := copy32 buf 38
    if senderHw = dutMac then .nothing
    else if committed = 0 then .nothing
    else if senderIp = committed then .challenge
    else if opcode ≠ 1 then .nothing
    else if targetIp ≠ committed then .nothing
    else .request senderIp senderHw

/-! ## The threads -/

/-- Where the responder's thread is. -/
inductive Responder where
  | absent
  | opening
  | opened
  | bound
  | check
  | polling (deadline : Nat)
  | receiving
  | holding (buf : List UInt8)
  | replying (targetIp : UInt32) (targetHw : List UInt8)
  | closing
  | finished
  deriving DecidableEq, Repr

def Responder.hasSocket : Responder → Bool
  | .absent | .opening | .finished => false
  | _ => true

def Responder.gone : Responder → Bool
  | .absent | .finished => true
  | _ => false

/-- What the worker is at, within one of its places: nothing, the join and the wait of
`startArpResponder`, an Announce it has decided to send, or the join of `stopArpResponder`. -/
inductive Duty where
  | none
  | replacing
  | starting (deadline : Nat)
  | sending
  | stopping
  deriving DecidableEq, Repr

def kResponderReadyMs : Nat := 500

structure Host extends State where
  responder : Responder := .absent
  stopResponder : Bool := false
  responderReady : Bool := false
  responderQueue : List (List UInt8) := []
  duty : Duty := .none
  announceAnchor : Nat := 0
  log : List Entry := []
  deriving DecidableEq, Repr

namespace Host

def record (h : Host) (event : Event) : Host := { h with log := h.log ++ [⟨h.now, event⟩] }

/-! ## The worker -/

/-- What the worker's next step is for the log. -/
def workEvent (s : State) : Option Event :=
  match s.worker with
  | .outer => if s.stopRequested then none else some .attempt
  | .probe _ => some (.probe s.tentativeLl)
  | .joining .early => some .abandoned
  | .judgeConflict _ => if s.conflictDetected then some .abandoned else none
  | .commit _ => some (.committed s.tentativeLl)
  | _ => none

/-- The state after a step of `runLoop`, with its event in the log. -/
def moved (h : Host) (s : State) : Host :=
  { h with
    toState := s
    log := h.log ++ ((workEvent h.toState).map fun event => ⟨h.now, event⟩).toList }

def announced (params : Params) (h : Host) (i : Nat) : Host :=
  { h.record (.announce h.tentativeLl) with
    sent := h.sent ++ [.arpAnnounce h.tentativeLl]
    worker := if i < 1 then .announceInterval (h.announceAnchor + params.announceIntervalMs) else .steady
    duty := .none }

/-- One step of `runLoop`, where it has no choice. -/
def workStep (params : Params) (h : Host) : Option Host :=
  match h.duty with
  | .replacing =>
    if h.responder.gone then
      some { h with
        stopResponder := false
        responderReady := false
        responder := .opening
        responderQueue := []
        duty := .starting (h.now + kResponderReadyMs) }
    else none
  | .starting deadline =>
    if h.responderReady ∨ h.now ≥ deadline then
      some { h with announceAnchor := h.now, duty := .none }
    else none
  | .sending =>
    match h.worker with
    | .announce i => some (h.announced params i)
    | _ => none
  | .stopping =>
    if h.responder.gone then
      (h.toState.workerStep params).map fun s => { h.moved s with responder := .absent, duty := .none }
    else none
  | .none =>
    match h.worker with
    | .commit _ =>
      (h.toState.workerStep params).map fun s => { h.moved s with stopResponder := true, duty := .replacing }
    | .announce _ =>
      if h.ceaseRequested then (h.toState.workerStep params).map h.moved
      else some { h with duty := .sending }
    | .announceInterval _ =>
      (h.toState.workerStep params).map fun s =>
        { h.moved s with stopResponder := h.stopResponder || h.stopRequested }
    | .ceased => some { h with stopResponder := true, duty := .stopping }
    | _ => (h.toState.workerStep params).map h.moved

/-! ## The helper threads -/

def listenStep (dutMac : List UInt8) (h : Host) (ok : Bool) : Option Host :=
  (h.toState.listenerStep dutMac ok).map fun s =>
    match h.listener with
    | .holding buf =>
      if conflicts dutMac h.tentativeLl buf then { h.record (.conflict h.tentativeLl) with toState := s }
      else { h with toState := s }
    | _ => { h with toState := s }

/-- One step of `runArpResponder`. `ok` is whether the system call of the step succeeds. -/
def respondStep (dutMac : List UInt8) (h : Host) (ok : Bool) : Option Host :=
  match h.responder with
  | .opening => some { h with responder := if ok then .opened else .finished }
  | .opened => some { h with responder := if ok then .bound else .closing }
  | .bound => some { h with responderReady := true, responder := .check }
  | .check =>
    if h.stopResponder || h.stopRequested then some { h with responder := .closing }
    else some { h with responder := .polling (h.now + kPollMs) }
  | .polling deadline =>
    if !ok then some { h with responder := .check }
    else if h.responderQueue ≠ [] then some { h with responder := .receiving }
    else if h.now ≥ deadline then some { h with responder := .check }
    else none
  | .receiving =>
    if !ok then some { h with responder := .check }
    else
      match h.responderQueue with
      | [] => none
      | frame :: queue =>
        some { h with responderQueue := queue, responder := .holding (frame.take kFrameBufLen) }
  | .holding buf =>
    match hear dutMac h.committedAddress buf with
    | .nothing => some { h with responder := .check }
    | .challenge =>
      some { h.record (.challenged h.committedAddress) with ceaseRequested := true, responder := .check }
    | .request senderIp senderHw => some { h with responder := .replying senderIp senderHw }
  | .replying _ _ =>
    if h.committedAddress = 0 then some { h with responder := .check }
    else some { h.record (.reply h.committedAddress) with responder := .check }
  | .closing => some { h with responderQueue := [], responder := .finished }
  | .absent | .finished => none

/-- The link layer queues a frame on the responder's socket. -/
def deliverResponder (h : Host) (frame : List UInt8) : Option Host :=
  if h.responder.hasSocket then some { h with responderQueue := h.responderQueue ++ [frame] } else none

end Host

/-! ## Runs -/

inductive HostAction where
  | work
  | pick (x y : UInt8)
  | interval (ms : Nat)
  | listen (ok : Bool)
  | respond (ok : Bool)
  | tick (ms : Nat)
  | deliver (frame : List UInt8)
  | deliverResponder (frame : List UInt8)
  | abort
  deriving DecidableEq, Repr

namespace Host

variable (params : Params) (dutMac : List UInt8)

def step (h : Host) : HostAction → Option Host
  | .work => h.workStep params
  | .pick x y => (h.toState.pickStep params x y).map fun s =>
      { h.record (.picked (State.llAddress x y)) with toState := s }
  | .interval ms => (h.toState.intervalStep params ms).map fun s => { h with toState := s }
  | .listen ok => h.listenStep dutMac ok
  | .respond ok => h.respondStep dutMac ok
  | .tick ms => some { h with now := h.now + ms }
  | .deliver frame => (h.toState.deliver frame).map fun s => { h with toState := s }
  | .deliverResponder frame => h.deliverResponder frame
  | .abort => some { h with stopRequested := true }

def run (h : Host) (actions : List HostAction) : Option Host := actions.foldlM (step params dutMac) h

/-- What `start` leaves: no helper thread, and nothing recorded. The flags are as an earlier run left
them. -/
structure Started (h : Host) : Prop where
  worker : h.worker = .discover
  listener : h.listener = .absent
  responder : h.responder = .absent
  duty : h.duty = .none
  log : h.log = []

end Host

end Tc8Harness.Dut.Linklocal
