import Tc8Harness.Autosar.Nm
import Tc8Harness.Lib.Observe

/-!
# Runs of the NM machine

Two laws of `nm.h` over whole runs. The Active Wakeup bit is for nodes that woke the network themselves:
`passive_clear_iff` has the passive start-ups that keep to this, all but those out of Prepare Bus Sleep
while the indication of the last episode is still set. The NM-Timeout is said to run from the last NM
message: `timeout_measured` has it for the runs that lose no time outside Ready Sleep, where the countdown
stands still.
-/

namespace Tc8Harness.Autosar.Nm

open Observe

/-! ## The Active Wakeup bit -/

/-- Bus Sleep and Prepare Bus Sleep, the states outside Network Mode. -/
def State.Asleep (s : State) : Prop := s = .kBusSleep ∨ s = .kPrepareBusSleep

/-- The Control Bit Vector has a byte of its own. -/
structure PduLayout.Apart (layout : PduLayout) : Prop where
  nodeId : layout.sourceNodeIdOff ≠ layout.controlBitVectorOff
  userData : ∀ i < layout.userDataLen.toNat,
    layout.userDataOff + UInt64.ofNat i ≠ layout.controlBitVectorOff

/-- The Active Wakeup bit of a PDU is clear. -/
def PduLayout.Passive (layout : PduLayout) (pdu : List UInt8) : Prop :=
  pdu.getD layout.controlBitVectorOff.toNat 0 &&& kCbvActiveWakeup = 0

variable {m m' m'' : StateMachine}

theorem getD_set_ne {pdu : List UInt8} {i j : Nat} (h : i ≠ j) (byte : UInt8) :
    (pdu.set i byte).getD j 0 = pdu.getD j 0 := by
  rw [List.getD_eq_getElem?_getD, List.getElem?_set_ne h, ← List.getD_eq_getElem?_getD]

theorem foldl_set_getD {write : Nat → Nat} {byte : Nat → UInt8} {j : Nat} {is : List Nat}
    (h : ∀ i ∈ is, write i ≠ j) (pdu : List UInt8) :
    (is.foldl (fun pdu i => pdu.set (write i) (byte i)) pdu).getD j 0 = pdu.getD j 0 := by
  induction is generalizing pdu with
  | nil => rfl
  | cons i is ih =>
    rw [List.foldl_cons, ih fun i hi => h i (List.mem_cons_of_mem _ hi),
      getD_set_ne (h i List.mem_cons_self)]

/-- While the indication is clear, so is the bit of every PDU that is built. -/
theorem pduBytes_passive (hapart : m.layout.Apart) (hclear : m.activeWakeup = false) :
    m.layout.Passive m.pduBytes := by
  have hwrites : ∀ i ∈ List.range m.layout.userDataLen.toNat,
      (m.layout.userDataOff + UInt64.ofNat i).toNat ≠ m.layout.controlBitVectorOff.toNat := by
    intro i hi heq
    exact hapart.userData i (List.mem_range.mp hi) (UInt64.toNat_inj.mp heq)
  have hzero : ((List.replicate m.layout.pduLength.toNat 0x00).set m.layout.sourceNodeIdOff.toNat
      m.nodeId).getD m.layout.controlBitVectorOff.toNat 0 = 0 := by
    rw [getD_set_ne fun heq => hapart.nodeId (UInt64.toNat_inj.mp heq)]
    simp [List.getD_eq_getElem?_getD, List.getElem?_replicate]
    split <;> rfl
  unfold PduLayout.Passive StateMachine.pduBytes
  rw [hclear]
  dsimp only
  rw [foldl_set_getD hwrites, if_neg Bool.false_ne_true]
  split
  · rw [StateMachine.orAt, List.getD_eq_getElem?_getD, List.getElem?_modify_eq]
    cases hget : ((List.replicate m.layout.pduLength.toNat 0x00).set m.layout.sourceNodeIdOff.toNat
      m.nodeId)[m.layout.controlBitVectorOff.toNat]? with
    | none => rfl
    | some byte =>
      rw [List.getD_eq_getElem?_getD, hget, Option.getD_some] at hzero
      rw [hzero]
      decide
  · rw [hzero]
    decide

/-- What a call does while the indication is clear: it stays clear, and what is sent has the bit clear. -/
structure Keeps (m m' : StateMachine) : Prop where
  layout : m'.layout = m.layout
  clear : m.activeWakeup = false → m'.activeWakeup = false
  sent : m.layout.Apart → m.activeWakeup = false → ∃ new, m'.calls = m.calls ++ new ∧
    ∀ state pdu, .onTransmit state pdu ∈ new → m.layout.Passive pdu

theorem Keeps.trans (h : Keeps m m') (h' : Keeps m' m'') : Keeps m m'' := by
  refine ⟨h'.layout.trans h.layout, fun hclear => h'.clear (h.clear hclear), ?_⟩
  intro hapart hclear
  obtain ⟨new, hcalls, hnew⟩ := h.sent hapart hclear
  obtain ⟨new', hcalls', hnew'⟩ := h'.sent (h.layout.symm ▸ hapart) (h.clear hclear)
  refine ⟨new ++ new', by rw [hcalls', hcalls, List.append_assoc], ?_⟩
  intro state pdu hmem
  rcases List.mem_append.mp hmem with hmem | hmem
  · exact hnew state pdu hmem
  · exact h.layout ▸ hnew' state pdu hmem

/-- A change of fields that have nothing to do with the indication. -/
theorem Keeps.fields (hlayout : m'.layout = m.layout)
    (hclear : m.activeWakeup = false → m'.activeWakeup = false) (hcalls : m'.calls = m.calls) :
    Keeps m m' :=
  ⟨hlayout, hclear, fun _ _ => ⟨[], by rw [hcalls, List.append_nil], by simp⟩⟩

/-- Such a change, and then a call. -/
theorem Keeps.after (h : Keeps m' m'') (hlayout : m'.layout = m.layout)
    (hclear : m.activeWakeup = false → m'.activeWakeup = false) (hcalls : m'.calls = m.calls) :
    Keeps m m'' := (Keeps.fields hlayout hclear hcalls).trans h

theorem keeps_transmit : Keeps m (StateMachine.left m.transmit) := by
  rw [left_transmit]
  split
  · exact .fields rfl id rfl
  · refine ⟨rfl, id, fun hapart hclear => ⟨_, rfl, ?_⟩⟩
    intro state pdu hmem
    obtain ⟨-, rfl⟩ : state = m.state ∧ pdu = m.pduBytes := by simpa using hmem
    exact pduBytes_passive hapart hclear

theorem keeps_enter (next : State) : Keeps m (m.enter next) :=
  ⟨rfl, id, fun _ _ => ⟨[.onTransition m.state next], rfl, by simp⟩⟩

theorem keeps_transitionTo (next : State) : Keeps m (m.transitionTo next) := by
  unfold StateMachine.transitionTo
  split
  · exact .fields rfl id rfl
  · refine (keeps_enter next).trans ?_
    dsimp only
    split
    · exact keeps_transmit.after rfl id rfl
    · exact keeps_transmit
    · exact .fields rfl id rfl
    · exact .fields rfl id rfl
    · exact .fields rfl (fun _ => rfl) rfl

theorem keeps_cycle (elapsed : Int) : Keeps m (StateMachine.left (m.cycle elapsed)) := by
  unfold StateMachine.cycle
  dsimp only
  split
  · exact keeps_transmit.after rfl id rfl
  · exact .fields rfl id rfl

theorem keeps_mainFunction (elapsed : Int) : Keeps m (m.mainFunction elapsed) := by
  unfold StateMachine.mainFunction
  split
  · exact .fields rfl id rfl
  · have hcycled := keeps_cycle (m := m) elapsed
    cases hcycle : m.cycle elapsed with
    | error thrown =>
      rw [hcycle] at hcycled
      exact hcycled
    | ok cycled =>
      rw [hcycle] at hcycled
      refine Keeps.trans hcycled ?_
      dsimp only [StateMachine.left]
      split
      · exact (keeps_transitionTo _).after rfl id rfl
      · exact .fields rfl id rfl
  · exact keeps_cycle elapsed
  · dsimp only
    split
    · exact (keeps_transitionTo _).after rfl id rfl
    · exact .fields rfl id rfl
  · dsimp only
    split
    · exact (keeps_transitionTo _).after rfl id rfl
    · exact .fields rfl id rfl

theorem keeps_rxNmPdu (pdu : List UInt8) : Keeps m (m.rxNmPdu pdu) := by
  unfold StateMachine.rxNmPdu
  dsimp only
  split
  · exact (keeps_transitionTo _).after rfl id rfl
  · split
    · split
      · exact .fields rfl id rfl
      · exact (keeps_transitionTo _).after rfl id rfl
    · exact .fields rfl id rfl

/-- Every call but a request for the network. -/
theorem keeps_step {op : Op} (hop : op ≠ .requestNetwork) : Keeps m (step m op) := by
  cases op with
  | requestNetwork => exact absurd rfl hop
  | releaseNetwork =>
    change Keeps m m.releaseNetwork
    unfold StateMachine.releaseNetwork
    dsimp only
    split
    · exact (keeps_transitionTo _).after rfl id rfl
    · exact .fields rfl id rfl
  | requestRepeatMessage =>
    change Keeps m m.requestRepeatMessage
    unfold StateMachine.requestRepeatMessage
    dsimp only
    split
    · exact .fields rfl id rfl
    · split
      · exact .fields rfl id rfl
      · exact (keeps_transitionTo _).after rfl id rfl
  | rxNmPdu pdu => exact keeps_rxNmPdu pdu
  | mainFunction elapsed => exact keeps_mainFunction elapsed
  | setUserData data => exact .fields rfl id rfl

theorem keeps_run {ops : List Op} (hops : .requestNetwork ∉ ops) : Keeps m (ops.foldl step m) := by
  induction ops generalizing m with
  | nil => exact .fields rfl id rfl
  | cons op ops ih =>
    rw [List.mem_cons, not_or] at hops
    exact (keeps_step (Ne.symm hops.1)).trans (ih hops.2)

/-! ## Passive start-ups -/

/-- The machine is woken by a received PDU and has, since, neither been asked for the network nor left
Network Mode. Asleep, it has not been asked since it left Network Mode: a request would have woken it. -/
structure PassiveEpisode (m : StateMachine) (before : List Op) (pdu : List UInt8) (during : List Op) :
    Prop where
  asleep : (before.foldl step m).state.Asleep
  notAsked : .requestNetwork ∉ during
  awake : ∀ part, part <+: during → ¬ ((part.foldl step ((before.foldl step m).rxNmPdu pdu)).state).Asleep

/-- The law of the Active Wakeup bit: throughout every passive episode of the run the indication reads
clear and every PDU that was sent has the bit clear. -/
def PassiveClear (m : StateMachine) (ops : List Op) : Prop :=
  ∀ before pdu during after, ops = before ++ .rxNmPdu pdu :: (during ++ after) →
    PassiveEpisode m before pdu during →
      let woken := during.foldl step ((before.foldl step m).rxNmPdu pdu)
      woken.activeWakeup = false ∧ ∃ new, woken.calls = (before.foldl step m).calls ++ new ∧
        ∀ state sent, .onTransmit state sent ∈ new → m.layout.Passive sent

/-- A PDU arrives in Prepare Bus Sleep while the indication of the episode before is still set. -/
def StaleWake (m : StateMachine) (op : Op) : Prop :=
  m.state = .kPrepareBusSleep ∧ m.activeWakeup = true ∧ ∃ pdu, op = .rxNmPdu pdu

theorem layout_step (op : Op) : (step m op).layout = m.layout := by
  by_cases hop : op = .requestNetwork
  · subst hop
    change m.requestNetwork.layout = m.layout
    unfold StateMachine.requestNetwork
    dsimp only
    split
    · exact (keeps_transitionTo _).layout
    · split
      · exact (keeps_transitionTo _).layout
      · rfl
  · exact (keeps_step hop).layout

theorem layout_run (ops : List Op) : (ops.foldl step m).layout = m.layout := by
  induction ops generalizing m with
  | nil => rfl
  | cons op ops ih => rw [List.foldl_cons, ih, layout_step]

/-- Out of either sleep a received PDU starts Repeat Message, with the indication as it was. -/
theorem rxNmPdu_wakes (hasleep : m.state.Asleep) (pdu : List UInt8) :
    (m.rxNmPdu pdu).state = .kRepeatMessage ∧ (m.rxNmPdu pdu).activeWakeup = m.activeWakeup := by
  have hne : State.kRepeatMessage ≠ m.state := by
    rcases hasleep with h | h <;> rw [h] <;> decide
  unfold StateMachine.rxNmPdu
  dsimp only
  rw [if_pos (show m.state = .kBusSleep ∨ m.state = .kPrepareBusSleep from hasleep)]
  unfold StateMachine.transitionTo
  rw [if_neg hne]
  dsimp only
  rw [left_transmit]
  split <;> exact ⟨rfl, rfl⟩

/-- **Active Wakeup reports only an active wake**, in exactly the runs in which no PDU arrives in Prepare
Bus Sleep while the indication is still set. -/
theorem passive_clear_iff (timing : Timing) (layout : PduLayout) (nodeId : UInt8)
    (hnew : StateMachine.create timing layout nodeId = .ok m) (hapart : layout.Apart) (ops : List Op) :
    PassiveClear m ops ↔ Along step (fun m op => ¬ StaleWake m op) m ops := by
  have hlayout : m.layout = layout := by
    obtain ⟨-, rfl⟩ := create_ok_iff.mp hnew
    rfl
  constructor
  · rintro h before op after heq ⟨hstate, hset, pdu, rfl⟩
    have hasleep : (before.foldl step m).state.Asleep := .inr hstate
    obtain ⟨hwoken, hkept⟩ := rxNmPdu_wakes hasleep pdu
    refine absurd ((h before pdu [] after heq ⟨hasleep, by simp, ?_⟩).1) ?_
    · intro part hpart
      rw [List.prefix_nil.mp hpart, List.foldl_nil, hwoken]
      rintro (h | h) <;> nomatch h
    · rw [List.foldl_nil, hkept, hset]
      simp
  · intro h before pdu during after heq hepisode
    have hconsistent : Consistent (before.foldl step m) :=
      reachable_consistent timing layout nodeId hnew before
    have hclear : (before.foldl step m).activeWakeup = false := by
      rw [Bool.eq_false_iff]
      intro hset
      rcases hepisode.asleep with hbus | hprepare
      · exact hconsistent.awake hset hbus
      · exact h before _ _ heq ⟨hprepare, hset, pdu, rfl⟩
    have hkeeps : Keeps (before.foldl step m)
        (during.foldl step ((before.foldl step m).rxNmPdu pdu)) :=
      (keeps_rxNmPdu pdu).trans (keeps_run hepisode.notAsked)
    refine ⟨hkeeps.clear hclear, ?_⟩
    have hbefore : (before.foldl step m).layout = m.layout := layout_run before
    have hsent := hkeeps.sent (by rw [hbefore, hlayout]; exact hapart) hclear
    rwa [hbefore] at hsent

/-- The machine of the unit tests. -/
def testMachine : StateMachine :=
  { timing := ⟨50, 200, 100, 150⟩, layout := ⟨8, 0, 1, 2, 6⟩, nodeId := 0x42,
    userData := .replicate 6 0x00 }

theorem apart_testMachine : testMachine.layout.Apart := by
  refine ⟨by decide, ?_⟩
  decide

instance (s : State) : Decidable s.Asleep := inferInstanceAs (Decidable (_ ∨ _))

instance (m : StateMachine) (op : Op) : Decidable (StaleWake m op) :=
  match op with
  | .rxNmPdu pdu => decidable_of_iff (m.state = .kPrepareBusSleep ∧ m.activeWakeup = true)
      ⟨fun h => ⟨h.1, h.2, pdu, rfl⟩, fun h => ⟨h.1, h.2.1⟩⟩
  | .requestNetwork | .releaseNetwork | .requestRepeatMessage | .mainFunction _ | .setUserData _ =>
      isFalse fun h => nomatch h.2.2

/-- A passive start-up out of Bus Sleep behind an active episode that slept all the way. -/
def sleepAndWake : List Op :=
  [.requestNetwork, .mainFunction 100, .releaseNetwork, .mainFunction 200, .mainFunction 150,
    .rxNmPdu [0x17, 0x00], .mainFunction 50]

theorem passive_clear_sleepAndWake : PassiveClear testMachine sleepAndWake :=
  (passive_clear_iff ⟨50, 200, 100, 150⟩ ⟨8, 0, 1, 2, 6⟩ 0x42 rfl apart_testMachine sleepAndWake).mpr
    (by decide +kernel)

/-- The unit test's wake out of Prepare Bus Sleep: the node reports the episode it has left. -/
theorem not_passive_clear_prepare : ¬ PassiveClear testMachine
    [.requestNetwork, .mainFunction 100, .releaseNetwork, .mainFunction 200, .rxNmPdu [0, 0]] := by
  intro h
  have hset := (h [.requestNetwork, .mainFunction 100, .releaseNetwork, .mainFunction 200] [0, 0] [] [] rfl
    ⟨by decide +kernel, by simp, ?_⟩).1
  · revert hset
    decide +kernel
  · intro part hpart
    rw [List.prefix_nil.mp hpart]
    decide +kernel

/-! ## The NM-Timeout -/

def Call.isTransmit : Call → Bool
  | .onTransmit _ _ => true
  | .onTransition _ _ => false

/-- How many PDUs the machine has sent. -/
def StateMachine.transmitted (m : StateMachine) : Nat := m.calls.countP Call.isTransmit

/-- The machine with what `mainFunction` was told went by since the last NM message, sent or received,
and the part of it that went by outside Ready Sleep. -/
structure Timed where
  machine : StateMachine
  since : Int := 0
  uncounted : Int := 0

def Op.elapsed : Op → Int
  | .mainFunction elapsed => elapsed
  | _ => 0

def Op.isRx : Op → Bool
  | .rxNmPdu _ => true
  | _ => false

/-- The call sends or is handed an NM message. -/
def exchanges (m : StateMachine) (op : Op) : Prop :=
  op.isRx = true ∨ m.transmitted < (Nm.step m op).transmitted

instance (m : StateMachine) (op : Op) : Decidable (exchanges m op) :=
  inferInstanceAs (Decidable (_ ∨ _))

/-- What a call sends, it sends behind the time it was told of. -/
def Timed.step (t : Timed) (op : Op) : Timed :=
  if exchanges t.machine op then ⟨Nm.step t.machine op, 0, 0⟩
  else
    ⟨Nm.step t.machine op, t.since + op.elapsed,
      if t.machine.state = .kReadySleep then t.uncounted else t.uncounted + op.elapsed⟩

/-- What the countdown says: it is full and untouched while the node sends, and in Ready Sleep it is
behind by the time that was not counted and, unless the timeout is none, still running. -/
def Countdown (m : StateMachine) (since uncounted : Int) : Prop :=
  match m.state with
  | .kRepeatMessage => m.nmTimeoutRem = m.timing.msgTimeout ∧ since = uncounted
  | .kNormalOperation => m.nmTimeoutRem = m.timing.msgTimeout ∧ since = uncounted
  | .kReadySleep => m.nmTimeoutRem = m.timing.msgTimeout - (since - uncounted) ∧
      (0 < m.timing.msgTimeout → 0 < m.nmTimeoutRem)
  | .kBusSleep => True
  | .kPrepareBusSleep => True

/-- A message restarts everything. -/
theorem countdown_restarted (h : m.nmTimeoutRem = m.timing.msgTimeout) : Countdown m 0 0 := by
  unfold Countdown
  split
  · exact ⟨h, rfl⟩
  · exact ⟨h, rfl⟩
  · omega
  · trivial
  · trivial

/-- The PDU fits into a vector, so that no transmission throws. -/
def StateMachine.Builds (m : StateMachine) : Prop := m.layout.pduLength.toNat ≤ maxSize

theorem transmit_sends (hbuilds : m.Builds) : m.transmit = .ok m.sent := by
  rw [transmit_eq, if_neg (Nat.not_lt.mpr hbuilds)]

theorem transmitted_sent : m.sent.transmitted = m.transmitted + 1 := by
  simp [StateMachine.transmitted, StateMachine.sent, List.countP_append, Call.isTransmit]

theorem transmitted_enter (next : State) : (m.enter next).transmitted = m.transmitted := by
  simp [StateMachine.transmitted, StateMachine.enter, List.countP_append, Call.isTransmit]

/-- A transition into a sending state sends and restarts the countdown. -/
theorem transitionTo_sends {n : State} (hbuilds : m.Builds) (hne : n ≠ m.state) (hnext : n.Sends) :
    m.transmitted < (m.transitionTo n).transmitted ∧
      (m.transitionTo n).nmTimeoutRem = m.timing.msgTimeout := by
  unfold StateMachine.transitionTo
  rw [if_neg hne]
  rcases hnext with rfl | rfl
  · dsimp only
    rw [transmit_sends (by exact hbuilds)]
    refine ⟨?_, rfl⟩
    rw [StateMachine.left, transmitted_sent]
    exact Nat.lt_succ_of_le (transmitted_enter _).ge
  · dsimp only
    rw [transmit_sends (by exact hbuilds)]
    refine ⟨?_, rfl⟩
    rw [StateMachine.left, transmitted_sent]
    exact Nat.lt_succ_of_le (transmitted_enter _).ge

/-- Any other leaves the countdown as it is. -/
theorem transitionTo_silent {n : State} (hne : n ≠ m.state) (hnext : ¬ n.Sends) :
    (m.transitionTo n).transmitted = m.transmitted ∧
      (m.transitionTo n).nmTimeoutRem = m.nmTimeoutRem ∧ (m.transitionTo n).state = n := by
  unfold StateMachine.transitionTo
  rw [if_neg hne]
  cases n with
  | kRepeatMessage => exact absurd (.inl rfl) hnext
  | kNormalOperation => exact absurd (.inr rfl) hnext
  | kBusSleep => exact ⟨transmitted_enter _, rfl, rfl⟩
  | kPrepareBusSleep => exact ⟨transmitted_enter _, rfl, rfl⟩
  | kReadySleep => exact ⟨transmitted_enter _, rfl, rfl⟩

theorem timing_transmit : (StateMachine.left m.transmit).timing = m.timing := by
  rw [left_transmit]
  split <;> rfl

theorem timing_transitionTo (next : State) : (m.transitionTo next).timing = m.timing := by
  unfold StateMachine.transitionTo
  split
  · rfl
  · cases next with
    | kRepeatMessage => exact timing_transmit
    | kNormalOperation => exact timing_transmit
    | kBusSleep | kPrepareBusSleep | kReadySleep => rfl

/-- What a call that is told of `elapsed` does to the countdown: a message restarts it, and otherwise it
goes on as `Countdown` has it. -/
structure Counts (elapsed : Int) (m m' : StateMachine) : Prop where
  timing : m'.timing = m.timing
  counts : (m.transmitted < m'.transmitted ∧ m'.nmTimeoutRem = m.timing.msgTimeout) ∨
    (m'.transmitted = m.transmitted ∧ ∀ since uncounted, Countdown m since uncounted →
      Countdown m' (since + elapsed)
        (if m.state = .kReadySleep then uncounted else uncounted + elapsed))

/-- A call that no time goes by in and that leaves the state and the countdown alone. -/
theorem Counts.same (htiming : m'.timing = m.timing) (hstate : m'.state = m.state)
    (hrem : m'.nmTimeoutRem = m.nmTimeoutRem) (hsent : m'.transmitted = m.transmitted) :
    Counts 0 m m' := by
  refine ⟨htiming, .inr ⟨hsent, fun since uncounted h => ?_⟩⟩
  unfold Countdown at h ⊢
  rw [Int.add_zero, Int.add_zero, ite_self, hstate, hrem, htiming]
  exact h

theorem Counts.sends {elapsed : Int} (htiming : m'.timing = m.timing)
    (hsent : m.transmitted < m'.transmitted) (hrem : m'.nmTimeoutRem = m.timing.msgTimeout) :
    Counts elapsed m m' := ⟨htiming, .inl ⟨hsent, hrem⟩⟩

theorem counts_requestNetwork (hbuilds : m.Builds) : Counts 0 m m.requestNetwork := by
  unfold StateMachine.requestNetwork
  dsimp only
  split
  · next hasleep =>
    have hne : State.kRepeatMessage ≠ m.state := by rcases hasleep with h | h <;> rw [h] <;> decide
    obtain ⟨hsent, hrem⟩ := transitionTo_sends
      (m := { m with networkRequested := true, activeWakeup := true }) hbuilds hne (.inl rfl)
    exact .sends (timing_transitionTo _) hsent hrem
  · split
    · next hready =>
      have hne : State.kNormalOperation ≠ m.state := by rw [hready]; decide
      obtain ⟨hsent, hrem⟩ := transitionTo_sends
        (m := { m with networkRequested := true, activeWakeup := true }) hbuilds hne (.inr rfl)
      exact .sends (timing_transitionTo _) hsent hrem
    · exact .same rfl rfl rfl rfl

theorem counts_releaseNetwork : Counts 0 m m.releaseNetwork := by
  unfold StateMachine.releaseNetwork
  dsimp only
  split
  · next hnormal =>
    have hne : State.kReadySleep ≠ m.state := by rw [hnormal]; decide
    obtain ⟨hsent, hrem, hstate⟩ := transitionTo_silent (m := { m with networkRequested := false }) hne
      (by rintro (h | h) <;> nomatch h)
    refine ⟨timing_transitionTo _, .inr ⟨hsent, fun since uncounted h => ?_⟩⟩
    unfold Countdown at h ⊢
    rw [hnormal] at h
    obtain ⟨hfull, heq⟩ := h
    rw [hstate, hrem, timing_transitionTo]
    dsimp only
    rw [if_neg (by rw [hnormal]; decide)]
    omega
  · exact .same rfl rfl rfl rfl

theorem counts_requestRepeatMessage (hbuilds : m.Builds) : Counts 0 m m.requestRepeatMessage := by
  unfold StateMachine.requestRepeatMessage
  dsimp only
  split
  · exact .same rfl rfl rfl rfl
  · split
    · exact .same rfl rfl rfl rfl
    · next hne =>
      obtain ⟨hsent, hrem⟩ := transitionTo_sends (m := { m with repeatRequested := true })
        hbuilds (Ne.symm hne) (.inl rfl)
      exact .sends (timing_transitionTo _) hsent hrem

/-- A received PDU restarts the countdown whatever it leads to. -/
theorem rxNmPdu_restarts (hbuilds : m.Builds) (pdu : List UInt8) :
    (m.rxNmPdu pdu).timing = m.timing ∧ (m.rxNmPdu pdu).nmTimeoutRem = m.timing.msgTimeout := by
  unfold StateMachine.rxNmPdu
  dsimp only
  split
  · next hasleep =>
    have hne : State.kRepeatMessage ≠ m.state := by rcases hasleep with h | h <;> rw [h] <;> decide
    exact ⟨timing_transitionTo _, (transitionTo_sends (m := { m with nmTimeoutRem := m.timing.msgTimeout })
      hbuilds hne (.inl rfl)).2⟩
  · split
    · split
      · exact ⟨rfl, rfl⟩
      · next hne =>
        exact ⟨timing_transitionTo _, (transitionTo_sends
          (m := { m with nmTimeoutRem := m.timing.msgTimeout }) hbuilds (Ne.symm hne) (.inl rfl)).2⟩
    · exact ⟨rfl, rfl⟩

/-- The periodic transmission restarts the countdown or leaves it alone. -/
theorem cycle_spec (hbuilds : m.Builds) (elapsed : Int) :
    ∃ m', m.cycle elapsed = .ok m' ∧ m'.Builds ∧ m'.timing = m.timing ∧ m'.state = m.state ∧
      ((m.transmitted < m'.transmitted ∧ m'.nmTimeoutRem = m.timing.msgTimeout) ∨
        (m'.transmitted = m.transmitted ∧ m'.nmTimeoutRem = m.nmTimeoutRem)) := by
  unfold StateMachine.cycle
  dsimp only
  split
  · refine ⟨_, transmit_sends (by exact hbuilds), hbuilds, rfl, rfl, .inl ⟨?_, rfl⟩⟩
    rw [transmitted_sent]
    exact Nat.lt_succ_self _
  · exact ⟨_, rfl, hbuilds, rfl, rfl, .inr ⟨rfl, rfl⟩⟩

/-- The end of Repeat Message, behind a cycle that sent or that left the countdown alone: the window may
close, which sends again or leaves the countdown as the cycle left it. -/
theorem counts_window {elapsed : Int} (hstate : m.state = .kRepeatMessage) (hbuilds : m'.Builds)
    (htiming : m'.timing = m.timing) (hkept : m'.state = m.state)
    (hcycle : (m.transmitted < m'.transmitted ∧ m'.nmTimeoutRem = m.timing.msgTimeout) ∨
      (m'.transmitted = m.transmitted ∧ m'.nmTimeoutRem = m.nmTimeoutRem)) :
    Counts elapsed m (if m'.repeatMsgRem ≤ 0 then
      m'.transitionTo (if m'.networkRequested then .kNormalOperation else .kReadySleep) else m') := by
  have hawake : m'.state = .kRepeatMessage := hkept.trans hstate
  have hready : ¬ m.state = .kReadySleep := by rw [hstate]; decide
  have hfull : ∀ since uncounted, Countdown m since uncounted →
      m.nmTimeoutRem = m.timing.msgTimeout ∧ since = uncounted := by
    intro since uncounted h
    unfold Countdown at h
    rwa [hstate] at h
  split
  · cases hnet : m'.networkRequested with
    | true =>
      obtain ⟨hsent, hrem⟩ := transitionTo_sends (n := .kNormalOperation) hbuilds
        (by rw [hawake]; decide : _ ≠ m'.state) (.inr rfl)
      rw [if_pos rfl]
      refine .sends ((timing_transitionTo _).trans htiming) ?_ (hrem.trans (by rw [htiming]))
      rcases hcycle with h | h
      · exact h.1.trans hsent
      · exact h.1.symm.trans_lt hsent
    | false =>
      obtain ⟨hsent, hrem, hnext⟩ := transitionTo_silent (n := .kReadySleep)
        (by rw [hawake]; decide : _ ≠ m'.state) (by rintro (h | h) <;> nomatch h)
      rw [if_neg Bool.false_ne_true]
      rcases hcycle with h | h
      · exact .sends ((timing_transitionTo _).trans htiming) (h.1.trans_eq hsent.symm)
          (hrem.trans h.2)
      · refine ⟨(timing_transitionTo _).trans htiming, .inr ⟨hsent.trans h.1, ?_⟩⟩
        intro since uncounted hcount
        obtain ⟨hrem', heq⟩ := hfull since uncounted hcount
        unfold Countdown
        rw [hnext, timing_transitionTo, htiming, if_neg hready, hrem, h.2]
        dsimp only
        omega
  · rcases hcycle with h | h
    · exact .sends htiming h.1 h.2
    · refine ⟨htiming, .inr ⟨h.1, ?_⟩⟩
      intro since uncounted hcount
      obtain ⟨hrem', heq⟩ := hfull since uncounted hcount
      unfold Countdown
      rw [hawake, if_neg hready, htiming, h.2]
      exact ⟨hrem', by rw [heq]⟩

theorem counts_mainFunction (hbuilds : m.Builds) (elapsed : Int) :
    Counts elapsed m (m.mainFunction elapsed) := by
  unfold StateMachine.mainFunction
  split
  · next hstate =>
    refine ⟨rfl, .inr ⟨rfl, fun since uncounted _ => ?_⟩⟩
    unfold Countdown
    rw [hstate]
    trivial
  · next hstate =>
    obtain ⟨m', hcycled, hbuilds', htiming, hkept, hcycle⟩ := cycle_spec hbuilds elapsed
    rw [hcycled]
    exact counts_window hstate hbuilds' htiming hkept hcycle
  · next hstate =>
    obtain ⟨m', hcycled, -, htiming, hkept, hcycle⟩ := cycle_spec hbuilds elapsed
    rw [hcycled, StateMachine.left]
    rcases hcycle with h | h
    · exact .sends htiming h.1 h.2
    · refine ⟨htiming, .inr ⟨h.1, fun since uncounted hcount => ?_⟩⟩
      unfold Countdown at hcount ⊢
      rw [hkept, htiming, h.2, hstate, if_neg (by decide)]
      rw [hstate] at hcount
      exact ⟨hcount.1, by rw [hcount.2]⟩
  · next hstate =>
    dsimp only
    split
    · obtain ⟨hsent, -, hnext⟩ := transitionTo_silent (n := .kPrepareBusSleep)
        (m := { m with nmTimeoutRem := m.nmTimeoutRem - elapsed }) (by rw [hstate]; decide)
        (by rintro (h | h) <;> nomatch h)
      refine ⟨timing_transitionTo _, .inr ⟨hsent, fun since uncounted _ => ?_⟩⟩
      unfold Countdown
      rw [hnext]
      trivial
    · refine ⟨rfl, .inr ⟨rfl, fun since uncounted hcount => ?_⟩⟩
      unfold Countdown at hcount ⊢
      rw [hstate] at hcount
      rw [if_pos hstate]
      dsimp only
      rw [hstate]
      dsimp only at hcount ⊢
      omega
  · next hstate =>
    dsimp only
    split
    · obtain ⟨hsent, -, hnext⟩ := transitionTo_silent (n := .kBusSleep)
        (m := { m with waitBusSleepRem := m.waitBusSleepRem - elapsed }) (by rw [hstate]; decide)
        (by rintro (h | h) <;> nomatch h)
      refine ⟨timing_transitionTo _, .inr ⟨hsent, fun since uncounted _ => ?_⟩⟩
      unfold Countdown
      rw [hnext]
      trivial
    · refine ⟨rfl, .inr ⟨rfl, fun since uncounted _ => ?_⟩⟩
      unfold Countdown
      dsimp only
      rw [hstate]
      trivial

/-- What a call that is handed no message does to the countdown. -/
theorem counts_step {op : Op} (hbuilds : m.Builds) (hop : op.isRx = false) : Counts op.elapsed m (step m op) := by
  cases op with
  | requestNetwork => exact counts_requestNetwork hbuilds
  | releaseNetwork => exact counts_releaseNetwork
  | requestRepeatMessage => exact counts_requestRepeatMessage hbuilds
  | rxNmPdu pdu => nomatch hop
  | mainFunction elapsed => exact counts_mainFunction hbuilds elapsed
  | setUserData data => exact .same rfl rfl rfl rfl

/-! ## Whole runs -/

/-- The invariant of a timed run. -/
structure Timed.Counted (timing : Timing) (t : Timed) : Prop where
  timing : t.machine.timing = timing
  builds : t.machine.Builds
  countdown : Countdown t.machine t.since t.uncounted

theorem builds_step (hbuilds : m.Builds) (op : Op) : (step m op).Builds := by
  rw [StateMachine.Builds, layout_step]
  exact hbuilds

theorem Timed.Counted.step {timing : Timing} {t : Timed} (h : t.Counted timing) (op : Op) :
    (t.step op).Counted timing := by
  have hbuilds := builds_step h.builds op
  unfold Timed.step
  cases hop : op.isRx with
  | true =>
    rw [if_pos (.inl hop)]
    cases op with
    | rxNmPdu pdu =>
      obtain ⟨htiming, hrem⟩ := rxNmPdu_restarts h.builds pdu
      exact ⟨htiming.trans h.timing, hbuilds,
        countdown_restarted (hrem.trans (by rw [← htiming]; rfl))⟩
    | requestNetwork | releaseNetwork | requestRepeatMessage | mainFunction _ | setUserData _ =>
      nomatch hop
  | false =>
    obtain ⟨htiming, hcounts⟩ := counts_step h.builds hop
    rcases hcounts with ⟨hsent, hrem⟩ | ⟨hsilent, hcount⟩
    · rw [if_pos (.inr hsent)]
      exact ⟨htiming.trans h.timing, hbuilds, countdown_restarted (hrem.trans (by rw [← htiming]))⟩
    · have hquiet : ¬ exchanges t.machine op := by
        rintro (hrx | hsent)
        · rw [hop] at hrx
          nomatch hrx
        · rw [hsilent] at hsent
          exact Nat.lt_irrefl _ hsent
      rw [if_neg hquiet]
      exact ⟨htiming.trans h.timing, hbuilds, hcount _ _ h.countdown⟩

theorem Timed.Counted.run {timing : Timing} {t : Timed} (h : t.Counted timing) (ops : List Op) :
    (ops.foldl Timed.step t).Counted timing := by
  induction ops generalizing t with
  | nil => exact h
  | cons op ops ih => exact ih (h.step op)

/-- The machine of a timed run is the machine of the run. -/
theorem Timed.machine_run (t : Timed) (ops : List Op) :
    (ops.foldl Timed.step t).machine = ops.foldl Nm.step t.machine := by
  induction ops generalizing t with
  | nil => rfl
  | cons op ops ih =>
    rw [List.foldl_cons, ih, List.foldl_cons]
    congr 1
    unfold Timed.step
    split <;> rfl

/-- The call puts a node in Ready Sleep to Prepare Bus Sleep. -/
def Expires (m : StateMachine) (elapsed : Int) : Prop :=
  m.state = .kReadySleep ∧ (m.mainFunction elapsed).state = .kPrepareBusSleep

/-- The law of the NM-Timeout: whenever it expires, the time since the last NM message reaches it in that
call. -/
def TimeoutMeasured (m : StateMachine) (ops : List Op) : Prop :=
  ∀ before elapsed after, ops = before ++ .mainFunction elapsed :: after →
    Expires (before.foldl step m) elapsed →
      let t := before.foldl Timed.step ⟨m, 0, 0⟩
      t.since < m.timing.msgTimeout ∧ m.timing.msgTimeout ≤ t.since + elapsed

/-- A call of `mainFunction` in Ready Sleep finds all of the time since the last NM message counted: what
went by outside Ready Sleep adds up to none. -/
def AllCounted (t : Timed) (op : Op) : Prop :=
  t.machine.state = .kReadySleep → ∀ elapsed, op = .mainFunction elapsed → t.uncounted = 0

/-- A call out of Ready Sleep covers what is left of the countdown. -/
theorem Expires.covered {elapsed : Int} (h : Expires m elapsed) : m.nmTimeoutRem ≤ elapsed := by
  obtain ⟨hready, hprepare⟩ := h
  unfold StateMachine.mainFunction at hprepare
  rw [hready] at hprepare
  dsimp only at hprepare
  by_cases hover : m.nmTimeoutRem - elapsed ≤ 0
  · omega
  · rw [if_neg hover] at hprepare
    cases hprepare

/-- **The NM-Timeout is measured from the last NM message** in every run whose calls in Ready Sleep find
no time lost: outside Ready Sleep the countdown stands still. -/
theorem timeout_measured (timing : Timing) (layout : PduLayout) (nodeId : UInt8)
    (hnew : StateMachine.create timing layout nodeId = .ok m) (hpos : 0 < timing.msgTimeout)
    (hbuilds : layout.pduLength.toNat ≤ maxSize) (ops : List Op)
    (hops : Along Timed.step AllCounted ⟨m, 0, 0⟩ ops) : TimeoutMeasured m ops := by
  have hstart : Timed.Counted timing ⟨m, 0, 0⟩ := by
    obtain ⟨-, rfl⟩ := create_ok_iff.mp hnew
    exact ⟨rfl, hbuilds, trivial⟩
  have htiming : m.timing = timing := hstart.timing
  intro before elapsed after heq hexpires
  have hcounted := hstart.run before
  have hcountdown := hcounted.countdown
  rw [← Timed.machine_run ⟨m, 0, 0⟩] at hexpires
  have hnone := hops before _ after heq hexpires.1 elapsed rfl
  have hcovered := hexpires.covered
  unfold Countdown at hcountdown
  rw [hexpires.1, hcounted.timing] at hcountdown
  dsimp only at hcountdown ⊢
  have hrunning := hcountdown.2 hpos
  rw [htiming]
  omega

instance (m : StateMachine) (elapsed : Int) : Decidable (Expires m elapsed) :=
  inferInstanceAs (Decidable (_ ∧ _))

instance (t : Timed) (op : Op) : Decidable (AllCounted t op) :=
  match op with
  | .mainFunction elapsed => decidable_of_iff (t.machine.state = .kReadySleep → t.uncounted = 0)
      ⟨fun h hready _ _ => h hready, fun h hready => h hready elapsed rfl⟩
  | .requestNetwork | .releaseNetwork | .requestRepeatMessage | .rxNmPdu _ | .setUserData _ =>
      isTrue fun _ _ heq => nomatch heq

/-- A node released right behind a transmission. -/
theorem timeout_measured_released : TimeoutMeasured testMachine
    [.requestNetwork, .mainFunction 100, .releaseNetwork, .mainFunction 199, .mainFunction 1] :=
  timeout_measured ⟨50, 200, 100, 150⟩ ⟨8, 0, 1, 2, 6⟩ 0x42 rfl (by decide) (by decide) _
    (by decide +kernel)

/-- A node released 40 ms behind its last transmission sleeps 240 ms behind it, and not at 230 ms. -/
theorem not_timeout_measured_normalOperation : ¬ TimeoutMeasured testMachine
    [.requestNetwork, .mainFunction 100, .mainFunction 40, .releaseNetwork, .mainFunction 190,
      .mainFunction 10] := by
  intro h
  have hmeasured := h [.requestNetwork, .mainFunction 100, .mainFunction 40, .releaseNetwork,
    .mainFunction 190] 10 [] rfl (by decide +kernel)
  revert hmeasured
  decide +kernel

end Tc8Harness.Autosar.Nm
