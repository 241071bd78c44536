import Mathlib

/-!
# The NM state machine

`src/autosar/nm.cpp`: the AUTOSAR network-management machine with its five states, its flags and its
four timers. Durations are integers of milliseconds, layout fields are `size_t`. The machine does no
I/O; what it hands to `onTransmit` and `onTransition` is kept in `calls`, each PDU with the state it
was sent in. A PDU that is too long for a vector is not built: the exception leaves the call, and the
machine, where it is thrown.

`Consistent` is the invariant of the machine. Every call keeps it (`step_consistent`), so every
reachable machine has it (`reachable_consistent`).
-/

namespace Tc8Harness.Autosar.Nm

/-! ## The machine -/

inductive State where
  | kBusSleep
  | kPrepareBusSleep
  | kRepeatMessage
  | kNormalOperation
  | kReadySleep
  deriving DecidableEq, Repr

/-- The timer durations, in milliseconds. -/
structure Timing where
  msgCycle : Int
  msgTimeout : Int
  repeatMessage : Int
  waitBusSleep : Int
  deriving DecidableEq, Repr

def kCbvRepeatMessageRequest : UInt8 := 0x01
def kCbvActiveWakeup : UInt8 := 0x20

structure PduLayout where
  pduLength : UInt64
  sourceNodeIdOff : UInt64
  controlBitVectorOff : UInt64
  userDataOff : UInt64
  userDataLen : UInt64
  deriving DecidableEq, Repr

/-- A call of one of the two callbacks. A transmission carries the state it was made in. -/
inductive Call where
  | onTransmit (state : State) (pdu : List UInt8)
  | onTransition (src dst : State)
  deriving DecidableEq, Repr

structure StateMachine where
  timing : Timing
  layout : PduLayout
  nodeId : UInt8
  userData : List UInt8
  state : State := .kBusSleep
  networkRequested : Bool := false
  repeatRequested : Bool := false
  activeWakeup : Bool := false
  nmTimeoutRem : Int := 0
  repeatMsgRem : Int := 0
  waitBusSleepRem : Int := 0
  msgCycleRem : Int := 0
  calls : List Call := []
  deriving DecidableEq, Repr

/-- `std::vector<std::uint8_t>::max_size()`. -/
def maxSize : Nat := 2 ^ 63 - 1

/-- The `std::length_error` of a vector that is asked for more. -/
def lengthError : String := "cannot create std::vector larger than max_size()"

/-- The constructor. The user data is allocated before the layout is checked, and the sum of the
user-data fields wraps as the source's does. -/
def StateMachine.create (timing : Timing) (layout : PduLayout) (nodeId : UInt8) :
    Except String StateMachine :=
  if layout.userDataLen.toNat > maxSize then .error lengthError
  else if layout.sourceNodeIdOff ≥ layout.pduLength ∨ layout.controlBitVectorOff ≥ layout.pduLength ∨
      layout.userDataOff + layout.userDataLen > layout.pduLength then
    .error "tc8::nm::StateMachine: PDU layout exceeds pdu_length"
  else
    .ok { timing, layout, nodeId, userData := .replicate layout.userDataLen.toNat 0x00 }

namespace StateMachine

variable (m : StateMachine)

/-- `pdu[off] |= bits`. -/
def orAt (pdu : List UInt8) (off : UInt64) (bits : UInt8) : List UInt8 :=
  pdu.modify off.toNat (· ||| bits)

/-- The bytes of the NM PDU. A write outside the PDU is undefined in the source and lost here. -/
def pduBytes : List UInt8 :=
  let pdu := (List.replicate m.layout.pduLength.toNat 0x00).set m.layout.sourceNodeIdOff.toNat m.nodeId
  let pdu := if m.repeatRequested ∧ m.state = .kRepeatMessage then
      orAt pdu m.layout.controlBitVectorOff kCbvRepeatMessageRequest
    else pdu
  let pdu := if m.activeWakeup then orAt pdu m.layout.controlBitVectorOff kCbvActiveWakeup else pdu
  (List.range m.layout.userDataLen.toNat).foldl
    (fun pdu i => pdu.set (m.layout.userDataOff + UInt64.ofNat i).toNat (m.userData.getD i 0)) pdu

def buildPdu : Except String (List UInt8) :=
  if m.layout.pduLength.toNat > maxSize then .error lengthError else .ok m.pduBytes

/-- A transmission. An exception carries the machine as it leaves it. -/
def transmit : Except StateMachine StateMachine :=
  match m.buildPdu with
  | .error _ => .error m
  | .ok pdu => .ok { m with
      calls := m.calls ++ [.onTransmit m.state pdu]
      msgCycleRem := m.timing.msgCycle
      nmTimeoutRem := m.timing.msgTimeout }

/-- The machine behind a part of a call that nothing follows, whether it returned or threw. -/
def left : Except StateMachine StateMachine → StateMachine
  | .ok m => m
  | .error m => m

/-- The part of `transitionTo` before its switch. -/
def enter (next : State) : StateMachine :=
  { m with
    state := next
    repeatRequested := if next ≠ .kRepeatMessage then false else m.repeatRequested
    calls := m.calls ++ [.onTransition m.state next] }

def transitionTo (next : State) : StateMachine :=
  if next = m.state then m
  else
    let entered := m.enter next
    match next with
    | .kRepeatMessage =>
      left (transmit { entered with
        repeatMsgRem := m.timing.repeatMessage, nmTimeoutRem := m.timing.msgTimeout })
    | .kNormalOperation => left entered.transmit
    | .kPrepareBusSleep => { entered with waitBusSleepRem := m.timing.waitBusSleep }
    | .kReadySleep => entered
    | .kBusSleep => { entered with activeWakeup := false }

def requestNetwork : StateMachine :=
  let m := { m with networkRequested := true, activeWakeup := true }
  if m.state = .kBusSleep ∨ m.state = .kPrepareBusSleep then m.transitionTo .kRepeatMessage
  else if m.state = .kReadySleep then m.transitionTo .kNormalOperation
  else m

def releaseNetwork : StateMachine :=
  let m := { m with networkRequested := false }
  if m.state = .kNormalOperation then m.transitionTo .kReadySleep else m

def requestRepeatMessage : StateMachine :=
  if m.state ≠ .kNormalOperation ∧ m.state ≠ .kReadySleep ∧ m.state ≠ .kRepeatMessage then m
  else
    let m := { m with repeatRequested := true }
    if m.state = .kRepeatMessage then { m with repeatMsgRem := m.timing.repeatMessage }
    else m.transitionTo .kRepeatMessage

def rxNmPdu (pdu : List UInt8) : StateMachine :=
  let m := { m with nmTimeoutRem := m.timing.msgTimeout }
  if m.state = .kBusSleep ∨ m.state = .kPrepareBusSleep then m.transitionTo .kRepeatMessage
  else if pdu.length > m.layout.controlBitVectorOff.toNat ∧
      pdu.getD m.layout.controlBitVectorOff.toNat 0 &&& kCbvRepeatMessageRequest ≠ 0 then
    if m.state = .kRepeatMessage then { m with repeatMsgRem := m.timing.repeatMessage }
    else m.transitionTo .kRepeatMessage
  else m

/-- The periodic transmission of Repeat Message and Normal Operation. -/
def cycle (elapsed : Int) : Except StateMachine StateMachine :=
  let m := { m with msgCycleRem := m.msgCycleRem - elapsed }
  if m.msgCycleRem ≤ 0 then m.transmit else .ok m

def mainFunction (elapsed : Int) : StateMachine :=
  match m.state with
  | .kBusSleep => m
  | .kRepeatMessage =>
    match m.cycle elapsed with
    | .error m => m
    | .ok m =>
      let m := { m with repeatMsgRem := m.repeatMsgRem - elapsed }
      if m.repeatMsgRem ≤ 0 then
        m.transitionTo (if m.networkRequested then .kNormalOperation else .kReadySleep)
      else m
  | .kNormalOperation => left (m.cycle elapsed)
  | .kReadySleep =>
    let m := { m with nmTimeoutRem := m.nmTimeoutRem - elapsed }
    if m.nmTimeoutRem ≤ 0 then m.transitionTo .kPrepareBusSleep else m
  | .kPrepareBusSleep =>
    let m := { m with waitBusSleepRem := m.waitBusSleepRem - elapsed }
    if m.waitBusSleepRem ≤ 0 then m.transitionTo .kBusSleep else m

def setUserData (data : List UInt8) : StateMachine :=
  let len := m.layout.userDataLen.toNat
  { m with userData := data.take len ++ .replicate (len - data.length) 0x00 }

end StateMachine

/-- The calls a module makes on the machine. -/
inductive Op where
  | requestNetwork
  | releaseNetwork
  | requestRepeatMessage
  | rxNmPdu (pdu : List UInt8)
  | mainFunction (elapsed : Int)
  | setUserData (data : List UInt8)
  deriving DecidableEq, Repr

def step (m : StateMachine) : Op → StateMachine
  | .requestNetwork => m.requestNetwork
  | .releaseNetwork => m.releaseNetwork
  | .requestRepeatMessage => m.requestRepeatMessage
  | .rxNmPdu pdu => m.rxNmPdu pdu
  | .mainFunction elapsed => m.mainFunction elapsed
  | .setUserData data => m.setUserData data

/-! ## The invariant -/

/-- The states in which the node does not need the network. -/
def State.Released (s : State) : Prop := s = .kReadySleep ∨ s = .kPrepareBusSleep ∨ s = .kBusSleep

/-- The states in which the node sends. -/
def State.Sends (s : State) : Prop := s = .kRepeatMessage ∨ s = .kNormalOperation

/-- Every PDU was sent in a sending state. -/
def SentAwake (calls : List Call) : Prop := ∀ state pdu, .onTransmit state pdu ∈ calls → state.Sends

structure Consistent (m : StateMachine) : Prop where
  requested : m.state = .kNormalOperation → m.networkRequested = true
  released : m.state.Released → m.networkRequested = false
  repeating : m.repeatRequested = true → m.state = .kRepeatMessage
  awake : m.activeWakeup = true → m.state ≠ .kBusSleep
  sent : SentAwake m.calls

theorem SentAwake.transition {calls : List Call} (h : SentAwake calls) (src dst : State) :
    SentAwake (calls ++ [.onTransition src dst]) := by
  intro state pdu hmem
  rcases List.mem_append.mp hmem with hold | hnew
  · exact h state pdu hold
  · simp at hnew

theorem SentAwake.transmission {calls : List Call} (h : SentAwake calls) {state : State}
    (hstate : state.Sends) (pdu : List UInt8) : SentAwake (calls ++ [.onTransmit state pdu]) := by
  intro state' pdu' hmem
  rcases List.mem_append.mp hmem with hold | hnew
  · exact h state' pdu' hold
  · simp only [List.mem_singleton, Call.onTransmit.injEq] at hnew
    rw [hnew.1]
    exact hstate

variable {m : StateMachine}

/-- A machine that agrees on the flags, the state and the calls. -/
theorem Consistent.congr {m' : StateMachine} (h : Consistent m) (hstate : m'.state = m.state)
    (hnet : m'.networkRequested = m.networkRequested)
    (hrep : m'.repeatRequested = m.repeatRequested) (hact : m'.activeWakeup = m.activeWakeup)
    (hcalls : m'.calls = m.calls) : Consistent m' where
  requested := by rw [hstate, hnet]; exact h.requested
  released := by rw [hstate, hnet]; exact h.released
  repeating := by rw [hstate, hrep]; exact h.repeating
  awake := by rw [hstate, hact]; exact h.awake
  sent := by rw [hcalls]; exact h.sent

/-- The machine behind a transmission that comes to its end. -/
def StateMachine.sent (m : StateMachine) : StateMachine :=
  { m with
    calls := m.calls ++ [.onTransmit m.state m.pduBytes]
    msgCycleRem := m.timing.msgCycle
    nmTimeoutRem := m.timing.msgTimeout }

/-- A transmission sends, or the PDU is too long and the machine is left as it was. -/
theorem transmit_eq : m.transmit =
    if m.layout.pduLength.toNat > maxSize then .error m else .ok m.sent := by
  unfold StateMachine.transmit StateMachine.buildPdu
  by_cases hlong : m.layout.pduLength.toNat > maxSize
  · rw [if_pos hlong, if_pos hlong]
  · rw [if_neg hlong, if_neg hlong]
    rfl

theorem left_transmit : StateMachine.left m.transmit =
    if m.layout.pduLength.toNat > maxSize then m else m.sent := by
  rw [transmit_eq]
  split <;> rfl

theorem sent_consistent (h : Consistent m) (hstate : m.state.Sends) : Consistent m.sent :=
  { h with sent := h.sent.transmission hstate m.pduBytes }

theorem transmit_consistent (h : Consistent m) (hstate : m.state.Sends) :
    Consistent (StateMachine.left m.transmit) := by
  rw [left_transmit]
  split
  · exact h
  · exact sent_consistent h hstate

/-- What a transition needs of the machine it starts from: the request flag fits the new state. The
other flags are set by the transition itself. -/
theorem transitionTo_consistent {next : State} (hne : next ≠ m.state)
    (hreq : next = .kNormalOperation → m.networkRequested = true)
    (hrel : next.Released → m.networkRequested = false) (hsent : SentAwake m.calls) :
    Consistent (m.transitionTo next) := by
  have hcalls := hsent.transition m.state next
  cases next with
  | kRepeatMessage =>
    rw [StateMachine.transitionTo, if_neg hne]
    refine transmit_consistent ⟨nofun, ?_, fun _ => rfl, nofun, hcalls⟩ (.inl rfl)
    rintro (h | h | h) <;> cases h
  | kNormalOperation =>
    rw [StateMachine.transitionTo, if_neg hne]
    refine transmit_consistent ⟨fun _ => hreq rfl, ?_, nofun, nofun, hcalls⟩ (.inr rfl)
    rintro (h | h | h) <;> cases h
  | kPrepareBusSleep =>
    rw [StateMachine.transitionTo, if_neg hne]
    exact ⟨nofun, hrel, nofun, nofun, hcalls⟩
  | kReadySleep =>
    rw [StateMachine.transitionTo, if_neg hne]
    exact ⟨nofun, hrel, nofun, nofun, hcalls⟩
  | kBusSleep =>
    rw [StateMachine.transitionTo, if_neg hne]
    exact ⟨nofun, hrel, nofun, nofun, hcalls⟩

theorem cycle_consistent (h : Consistent m) (hstate : m.state.Sends) (elapsed : Int) :
    Consistent (StateMachine.left (m.cycle elapsed)) := by
  have hcounted : Consistent { m with msgCycleRem := m.msgCycleRem - elapsed } :=
    h.congr rfl rfl rfl rfl rfl
  simp only [StateMachine.cycle]
  split
  · exact transmit_consistent hcounted hstate
  · exact hcounted

theorem cycle_state (elapsed : Int) : (StateMachine.left (m.cycle elapsed)).state = m.state := by
  simp only [StateMachine.cycle]
  split
  · rw [left_transmit]
    split <;> rfl
  · rfl

/-! ## One call -/

/-- The start-up edge into Repeat Message is open whatever the request flag is. -/
theorem toRepeatMessage_consistent (hne : m.state ≠ .kRepeatMessage) (hsent : SentAwake m.calls) :
    Consistent (m.transitionTo .kRepeatMessage) := by
  refine transitionTo_consistent hne.symm nofun ?_ hsent
  rintro (h | h | h) <;> cases h

theorem requestNetwork_consistent (h : Consistent m) : Consistent m.requestNetwork := by
  simp only [StateMachine.requestNetwork]
  split
  · next hasleep =>
    refine toRepeatMessage_consistent ?_ h.sent
    rcases hasleep with hs | hs <;> simp [hs]
  · next hnet =>
    split
    · next hs =>
      refine transitionTo_consistent (by simp [hs]) (fun _ => rfl) ?_ h.sent
      rintro (hr | hr | hr) <;> cases hr
    · next hready =>
      refine ⟨fun _ => rfl, ?_, h.repeating, fun _ hbus => hnet (.inl hbus), h.sent⟩
      -- a state that needs no network is one of the three that were left above
      rintro (hr | hr | hr)
      · exact absurd hr hready
      · exact absurd (.inr hr) hnet
      · exact absurd (.inl hr) hnet

theorem releaseNetwork_consistent (h : Consistent m) : Consistent m.releaseNetwork := by
  simp only [StateMachine.releaseNetwork]
  by_cases hs : m.state = .kNormalOperation
  · rw [if_pos hs]
    exact transitionTo_consistent (by simp [hs]) nofun (fun _ => rfl) h.sent
  · rw [if_neg hs]
    exact ⟨fun hn => absurd hn hs, fun _ => rfl, h.repeating, h.awake, h.sent⟩

theorem requestRepeatMessage_consistent (h : Consistent m) :
    Consistent m.requestRepeatMessage := by
  simp only [StateMachine.requestRepeatMessage]
  split
  · exact h
  · by_cases hs : m.state = .kRepeatMessage
    · rw [if_pos hs]
      exact ⟨h.requested, h.released, fun _ => hs, h.awake, h.sent⟩
    · rw [if_neg hs]
      exact toRepeatMessage_consistent hs h.sent

theorem rxNmPdu_consistent (h : Consistent m) (pdu : List UInt8) : Consistent (m.rxNmPdu pdu) := by
  simp only [StateMachine.rxNmPdu]
  split
  · next hasleep =>
    refine toRepeatMessage_consistent ?_ h.sent
    rcases hasleep with hs | hs <;> simp [hs]
  · split
    · split
      · exact h.congr rfl rfl rfl rfl rfl
      · next hs => exact toRepeatMessage_consistent hs h.sent
    · exact h.congr rfl rfl rfl rfl rfl

theorem mainFunction_consistent (h : Consistent m) (elapsed : Int) :
    Consistent (m.mainFunction elapsed) := by
  unfold StateMachine.mainFunction
  cases hs : m.state with
  | kBusSleep => exact h
  | kRepeatMessage =>
    have hcycled := cycle_consistent h (.inl hs) elapsed
    have hstate := (cycle_state (m := m) elapsed).trans hs
    cases hcycle : m.cycle elapsed with
    | error thrown =>
      rw [hcycle] at hcycled
      exact hcycled
    | ok cycled =>
      rw [hcycle] at hcycled hstate
      change Consistent cycled at hcycled
      change cycled.state = .kRepeatMessage at hstate
      simp only
      split
      · -- the window is over: the request flag chooses the next state
        cases hnet : cycled.networkRequested with
        | true =>
          refine transitionTo_consistent (by simp [hstate]) (fun _ => rfl) ?_ hcycled.sent
          rintro (hr | hr | hr) <;> cases hr
        | false =>
          exact transitionTo_consistent (by simp [hstate]) nofun (fun _ => rfl) hcycled.sent
      · exact hcycled.congr rfl rfl rfl rfl rfl
  | kNormalOperation => exact cycle_consistent h (.inr hs) elapsed
  | kReadySleep =>
    simp only
    split
    · exact transitionTo_consistent (by simp) nofun (fun _ => h.released (.inl hs)) h.sent
    · exact h.congr hs.symm rfl rfl rfl rfl
  | kPrepareBusSleep =>
    simp only
    split
    · exact transitionTo_consistent (by simp) nofun (fun _ => h.released (.inr (.inl hs))) h.sent
    · exact h.congr hs.symm rfl rfl rfl rfl

theorem step_consistent (h : Consistent m) (op : Op) : Consistent (step m op) := by
  cases op with
  | requestNetwork => exact requestNetwork_consistent h
  | releaseNetwork => exact releaseNetwork_consistent h
  | requestRepeatMessage => exact requestRepeatMessage_consistent h
  | rxNmPdu pdu => exact rxNmPdu_consistent h pdu
  | mainFunction elapsed => exact mainFunction_consistent h elapsed
  | setUserData data => exact h.congr rfl rfl rfl rfl rfl

/-! ## Every run -/

/-- The layouts the constructor throws on. -/
def PduLayout.Rejected (layout : PduLayout) : Prop :=
  layout.userDataLen.toNat > maxSize ∨ layout.sourceNodeIdOff ≥ layout.pduLength ∨
    layout.controlBitVectorOff ≥ layout.pduLength ∨
    layout.userDataOff + layout.userDataLen > layout.pduLength

/-- The machine of a constructor that has not thrown. -/
def StateMachine.initial (timing : Timing) (layout : PduLayout) (nodeId : UInt8) : StateMachine :=
  { timing, layout, nodeId, userData := .replicate layout.userDataLen.toNat 0x00 }

theorem create_ok_iff {timing : Timing} {layout : PduLayout} {nodeId : UInt8} :
    StateMachine.create timing layout nodeId = .ok m ↔
      ¬ layout.Rejected ∧ m = .initial timing layout nodeId := by
  unfold StateMachine.create PduLayout.Rejected
  split
  · next hlong => exact iff_of_false (by simp) fun h => h.1 (.inl hlong)
  · next hshort =>
    split
    · next hguard => exact iff_of_false (by simp) fun h => h.1 (.inr hguard)
    · next hguard =>
      rw [Except.ok.injEq, eq_comm]
      exact (and_iff_right (not_or.mpr ⟨hshort, hguard⟩)).symm

theorem create_consistent {timing : Timing} {layout : PduLayout} {nodeId : UInt8}
    (hnew : StateMachine.create timing layout nodeId = .ok m) : Consistent m := by
  obtain ⟨-, rfl⟩ := create_ok_iff.mp hnew
  exact ⟨nofun, fun _ => rfl, nofun, nofun, nofun⟩

/-- **The invariant of the NM machine.** Whatever the configuration and whatever is called, the
flags fit the state, and nothing is ever sent outside Repeat Message and Normal Operation. -/
theorem reachable_consistent (timing : Timing) (layout : PduLayout) (nodeId : UInt8)
    (hnew : StateMachine.create timing layout nodeId = .ok m) (ops : List Op) :
    Consistent (ops.foldl step m) := by
  have hinit := create_consistent hnew
  clear hnew
  induction ops generalizing m with
  | nil => exact hinit
  | cons op ops ih => exact ih (step_consistent hinit op)

/-- An active start-up, node detection, release and sleep, with the timing and the layout of the
unit tests. -/
theorem reachable_consistent_sleep :
    Consistent (List.foldl step
      { timing := ⟨50, 200, 100, 150⟩, layout := ⟨8, 0, 1, 2, 6⟩, nodeId := 0x42,
        userData := .replicate 6 0x00 }
      [.requestNetwork, .mainFunction 100, .requestRepeatMessage, .releaseNetwork,
        .mainFunction 100, .rxNmPdu [0x17, 0x00], .mainFunction 200, .mainFunction 150]) :=
  reachable_consistent ⟨50, 200, 100, 150⟩ ⟨8, 0, 1, 2, 6⟩ 0x42 rfl _

end Tc8Harness.Autosar.Nm
