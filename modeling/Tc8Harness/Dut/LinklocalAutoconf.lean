import Tc8Harness.Dissect.Decoders

/-!
# Link-local autoconfiguration

`dut/dut_service/linklocal_autoconf.cpp` with flavor `None`: the worker that probes for an address, claims
and announces it (`runLoop`), and the conflict listener it starts for each attempt. The two run on their own
threads and share three atomics, the listener's socket and the clock. A step is one atomic access or one
system call of either thread; what a thread does between two of them that the other cannot see belongs to
the step. The responder that defends a claimed address is in the model by the flag it raises.
-/

namespace Tc8Harness.Dut.Linklocal

open Wire

/-! ## Frames -/

def kFrameBufLen : Nat := 64
def kEthArpLen : Nat := 42

/-- What `runConflictListener` tests of the bytes it received: another station's ARP that has the address
as its sender, or probes for it. -/
def conflicts (dutMac : List UInt8) (tentativeLl : UInt32) (buf : List UInt8) : Bool :=
  if buf.length < kEthArpLen then false
  else
    let opcode := readBe16 buf 20
    let senderHw := (buf.drop 22).take 6
    let senderIp := copy32 buf 28
    let targetIp := copy32 buf 38
    if senderHw = dutMac then false
    else senderIp == tentativeLl || (opcode == 1 && senderIp == 0 && targetIp == tentativeLl)

/-- A frame and the instant at which it was queued on the socket. -/
structure Arrival where
  at_ : Nat
  frame : List UInt8
  deriving DecidableEq, Repr

/-! ## The threads -/

/-- Where the worker goes once the listener is joined. -/
inductive AfterJoin where
  | quit
  | early
  | judge (waitEnd : Nat)
  deriving DecidableEq, Repr

/-- Where the worker is. A wait carries its deadline, and what follows the wait after the third Probe
carries that wait's. -/
inductive Worker where
  | discover
  | dhcpWait (deadline : Nat)
  | outer
  | attempt
  | rateLimitWait (deadline : Nat)
  | pick
  | probeWait (deadline : Nat)
  | probe (i : Nat)
  | probed (i : Nat)
  | interval (i : Nat)
  | intervalWait (i deadline : Nat)
  | intervalEnded (i : Nat)
  | announceWait (deadline : Nat)
  | stopping (next : AfterJoin)
  | joining (next : AfterJoin)
  | judgeStop (waitEnd : Nat)
  | judgeConflict (waitEnd : Nat)
  | commit (waitEnd : Nat)
  | announce (i : Nat)
  | announceInterval (deadline : Nat)
  | steady
  | ceased
  | done
  deriving DecidableEq, Repr

/-- Where the listener's thread is: not there, making its socket, in its loop, or on its way out. -/
inductive Listener where
  | absent
  | opening
  | opened
  | check
  | polling (deadline : Nat)
  | receiving
  | holding (buf : List UInt8)
  | closing (bound : Bool)
  | finished
  deriving DecidableEq, Repr

/-- The socket is there and bound. -/
def Listener.bound : Listener → Bool
  | .check | .polling _ | .receiving | .holding _ => true
  | .closing bound => bound
  | .absent | .opening | .opened | .finished => false

/-- The socket is there, bound or not. -/
def Listener.hasSocket : Listener → Bool
  | .absent | .opening | .finished => false
  | _ => true

structure Params where
  dhcpTimeoutMs : Nat := 200
  probeWaitMs : Nat := 200
  probeMinMs : Nat := 200
  probeMaxMs : Nat := 300
  announceWaitMs : Nat := 200
  announceIntervalMs : Nat := 200
  rateLimitIntervalMs : Nat := 60000
  deriving DecidableEq, Repr

def kMaxConflicts : Nat := 10
def kPollMs : Nat := 50

/-- What the worker sends. -/
inductive Emission where
  | dhcpDiscover
  | arpProbe (tentativeLl : UInt32)
  | arpAnnounce (committedLl : UInt32)
  deriving DecidableEq, Repr

/-- A committed address, with the deadline of its ANNOUNCE_WAIT and what had reached the bound socket of
its listener by then or after. -/
structure Claimed where
  address : UInt32
  waitEnd : Nat
  arrivals : List Arrival
  deriving DecidableEq, Repr

/-- `arrivals` and `commits` record the run; the program does not read them. -/
structure State where
  now : Nat := 0
  stopRequested : Bool := false
  stopListener : Bool := false
  conflictDetected : Bool := false
  ceaseRequested : Bool := false
  worker : Worker := .discover
  tentativeLl : UInt32 := 0
  conflictCount : Nat := 0
  rateLimitActive : Bool := false
  committedAddress : UInt32 := 0
  sent : List Emission := []
  listener : Listener := .absent
  queue : List Arrival := []
  arrivals : List Arrival := []
  commits : List Claimed := []
  deriving DecidableEq, Repr

namespace State

/-! ## The worker -/

/-- `sleepInterruptible` up to a deadline and the test of `stop_requested_` after it. -/
def wake (s : State) (deadline : Nat) (stopped next : Worker) : Option State :=
  if s.stopRequested then some { s with worker := stopped }
  else if s.now ≥ deadline then some { s with worker := next }
  else none

/-- A conflict counts towards the rate limit, and another attempt begins. -/
def countConflict (s : State) : State :=
  { s with
    conflictCount := s.conflictCount + 1
    rateLimitActive := s.rateLimitActive || decide (s.conflictCount + 1 ≥ kMaxConflicts)
    worker := .attempt }

/-- The worker's step after `join` has returned. -/
def joined (s : State) : AfterJoin → State
  | .quit => { s with listener := .absent, worker := .done }
  | .early => { s with listener := .absent }.countConflict
  | .judge waitEnd => { s with listener := .absent, worker := .judgeStop waitEnd }

/-- One step of `runLoop`, where it has no choice. -/
def workerStep (params : Params) (s : State) : Option State :=
  match s.worker with
  | .discover =>
    some { s with sent := s.sent ++ [.dhcpDiscover], worker := .dhcpWait (s.now + params.dhcpTimeoutMs) }
  | .dhcpWait deadline => s.wake deadline .done .outer
  | .outer =>
    if s.stopRequested then some { s with worker := .done }
    else some { s with conflictCount := 0, rateLimitActive := false, worker := .attempt }
  | .attempt =>
    if s.rateLimitActive then
      some { s with worker := .rateLimitWait (s.now + params.rateLimitIntervalMs) }
    else some { s with worker := .pick }
  | .rateLimitWait deadline => s.wake deadline .done .pick
  | .probeWait deadline => s.wake deadline (.stopping .quit) (.probe 0)
  | .probe i => some { s with sent := s.sent ++ [.arpProbe s.tentativeLl], worker := .probed i }
  | .probed i =>
    if s.conflictDetected then some { s with worker := .stopping .early }
    else if i < 2 then some { s with worker := .interval i }
    else some { s with worker := .announceWait (s.now + params.announceWaitMs) }
  | .intervalWait i deadline => s.wake deadline (.stopping .quit) (.intervalEnded i)
  | .intervalEnded i =>
    if s.conflictDetected then some { s with worker := .stopping .early }
    else some { s with worker := .probe (i + 1) }
  | .announceWait deadline => s.wake deadline (.stopping (.judge deadline)) (.stopping (.judge deadline))
  | .stopping next => some { s with stopListener := true, worker := .joining next }
  | .joining next =>
    match s.listener with
    | .absent | .finished => some (s.joined next)
    | _ => none
  | .judgeStop waitEnd =>
    if s.stopRequested then some { s with worker := .done }
    else some { s with worker := .judgeConflict waitEnd }
  | .judgeConflict waitEnd =>
    if s.conflictDetected then some s.countConflict else some { s with worker := .commit waitEnd }
  | .commit waitEnd =>
    some { s with
      committedAddress := s.tentativeLl
      ceaseRequested := false
      commits := s.commits ++ [⟨s.tentativeLl, waitEnd, s.arrivals⟩]
      arrivals := []
      worker := .announce 0 }
  | .announce i =>
    if s.ceaseRequested then some { s with worker := .steady }
    else
      some { s with
        sent := s.sent ++ [.arpAnnounce s.tentativeLl]
        worker := if i < 1 then .announceInterval (s.now + params.announceIntervalMs) else .steady }
  | .announceInterval deadline => s.wake deadline .done (.announce 1)
  | .steady =>
    if s.stopRequested then some { s with worker := .done }
    else if s.ceaseRequested then some { s with worker := .ceased }
    else some s
  | .ceased => some { s with committedAddress := 0, worker := .outer }
  | .pick | .interval _ | .done => none

/-- 169.254.X.Y in network byte order. -/
def llAddress (x y : UInt8) : UInt32 := copy32 [0xA9, 0xFE, x, y] 0

/-- `pickLLAddress` and `startConflictListener`: the listener of the last attempt has been joined, so
nothing else sees the two flags being cleared. -/
def pickStep (params : Params) (s : State) (x y : UInt8) : Option State :=
  if s.worker = .pick ∧ 1 ≤ x ∧ x ≤ 254 ∧ s.listener = .absent then
    some { s with
      tentativeLl := llAddress x y
      conflictDetected := false
      stopListener := false
      listener := .opening
      queue := []
      arrivals := []
      worker := .probeWait (s.now + params.probeWaitMs) }
  else none

/-- `probe_interval`. -/
def intervalStep (params : Params) (s : State) (ms : Nat) : Option State :=
  match s.worker with
  | .interval i =>
    if params.probeMinMs ≤ ms ∧ ms ≤ max params.probeMinMs params.probeMaxMs then
      some { s with worker := .intervalWait i (s.now + ms) }
    else none
  | _ => none

/-! ## The listener -/

/-- One step of `runConflictListener`. `ok` is whether the system call of the step succeeds. -/
def listenerStep (dutMac : List UInt8) (s : State) (ok : Bool) : Option State :=
  match s.listener with
  | .opening => some { s with listener := if ok then .opened else .finished }
  | .opened => some { s with listener := if ok then .check else .closing false }
  | .check =>
    if s.stopListener || s.stopRequested then some { s with listener := .closing true }
    else some { s with listener := .polling (s.now + kPollMs) }
  | .polling deadline =>
    if !ok then some { s with listener := .check }
    else if s.queue ≠ [] then some { s with listener := .receiving }
    else if s.now ≥ deadline then some { s with listener := .check }
    else none
  | .receiving =>
    if !ok then some { s with listener := .check }
    else
      match s.queue with
      | [] => none
      | first :: queue =>
        some { s with queue := queue, listener := .holding (first.frame.take kFrameBufLen) }
  | .holding buf =>
    if conflicts dutMac s.tentativeLl buf then
      some { s with conflictDetected := true, listener := .closing true }
    else some { s with listener := .check }
  | .closing _ => some { s with queue := [], listener := .finished }
  | .absent | .finished => none

/-- The link layer queues a frame on the listener's socket. -/
def deliver (s : State) (frame : List UInt8) : Option State :=
  if s.listener.hasSocket then
    some { s with
      queue := s.queue ++ [⟨s.now, frame⟩]
      arrivals := if s.listener.bound then s.arrivals ++ [⟨s.now, frame⟩] else s.arrivals }
  else none

end State

/-! ## Runs -/

/-- What can happen next: a step of either thread, time, a frame, `abort`, or a conflict with the claimed
address that the responder sees. -/
inductive Action where
  | work
  | pick (x y : UInt8)
  | interval (ms : Nat)
  | listen (ok : Bool)
  | tick (ms : Nat)
  | deliver (frame : List UInt8)
  | abort
  | cease
  deriving DecidableEq, Repr

variable (params : Params) (dutMac : List UInt8)

def step (s : State) : Action → Option State
  | .work => s.workerStep params
  | .pick x y => s.pickStep params x y
  | .interval ms => s.intervalStep params ms
  | .listen ok => s.listenerStep dutMac ok
  | .tick ms => some { s with now := s.now + ms }
  | .deliver frame => s.deliver frame
  | .abort => some { s with stopRequested := true }
  | .cease => some { s with ceaseRequested := true }

def run (s : State) (actions : List Action) : Option State := actions.foldlM (step params dutMac) s

/-- What `start` leaves: no listener, and nothing recorded. -/
structure Started (s : State) : Prop where
  worker : s.worker = .discover
  listener : s.listener = .absent
  arrivals : s.arrivals = []
  commits : s.commits = []

end Tc8Harness.Dut.Linklocal
