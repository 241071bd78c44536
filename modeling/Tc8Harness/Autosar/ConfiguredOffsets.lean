import Tc8Harness.Autosar.E2e
import Tc8Harness.Autosar.NmRuns
import Tc8Harness.Lib.CheckedAccess

/-!
# Configured offsets

The E2E profiles, the NM machine and the PN filter index a buffer by configured `size_t` values. Here each
of them is run with every access checked against the length of its buffer, so that a run that leaves the
buffer is `none` and a run that stays inside is the run of the model. The E2E guards and the NM constructor
compare a sum that wraps; `PnFilter::relevant` subtracts instead. `offsets_in_bounds_iff`: the first three
keep inside exactly when their sum does not wrap, the filter always.
-/

namespace Tc8Harness.Autosar

open CheckedAccess

/-! ## Profile 5 -/

def computeCrcChecked (data : List UInt8) (cfg : Profile05Config) : Option UInt16 := do
  let front ← loadRange data 0 cfg.offset.toNat
  let back ← loadRange data (cfg.offset + kP05CounterPos).toNat data.length
  return crc16Ccitt (front ++ back ++ cfg.dataIdBytes) 0x0000 true

/-- `protect` behind its length check. -/
def Profile05Protector.protectChecked (p : Profile05Protector) (data : List UInt8) :
    Option (List UInt8 × Profile05Protector) := do
  let counter := p.counter + 1
  let data ← store data (p.config.offset + kP05CounterPos).toNat counter
  let crc ← computeCrcChecked data p.config
  let data ← store data p.config.offset.toNat (crc &&& 0xFF).toUInt8
  let data ← store data (p.config.offset + 1).toNat ((crc >>> 8) &&& 0xFF).toUInt8
  return (data, { p with counter := counter })

/-- `check` behind its length check. -/
def Profile05Checker.checkChecked (c : Profile05Checker) (data : List UInt8) :
    Option (CheckStatus × Profile05Checker) := do
  let lo ← load data c.config.offset.toNat
  let hi ← load data (c.config.offset + 1).toNat
  let crc ← computeCrcChecked data c.config
  if lo.toUInt16 ||| (hi.toUInt16 <<< 8) ≠ crc then return (.kError, c)
  else
    let rx ← load data (c.config.offset + kP05CounterPos).toNat
    if !c.haveLast then return (.kOk, { c with haveLast := true, lastCounter := rx })
    else return (classifyCounter (rx - c.lastCounter) c.config.maxDeltaCounter, { c with lastCounter := rx })

theorem computeCrcChecked_eq {data : List UInt8} {cfg : Profile05Config}
    (h : cfg.offset.toNat ≤ data.length) : computeCrcChecked data cfg = some (computeCrc data cfg) := by
  rw [computeCrcChecked, bind_of_eq_some (loadRange_front h), bind_of_eq_some (loadRange_back _)]
  rfl

theorem Profile05Protector.protectChecked_eq {p : Profile05Protector} {data : List UInt8}
    (h : Covers p.config.offset kP05HeaderLen data) {r : List UInt8 × Profile05Protector}
    (hr : p.protect data = .ok r) : p.protectChecked data = some r := by
  have hheader : p.config.offset.toNat + 3 ≤ data.length := h.header
  have hcrc := h.p05CrcHigh
  have hcounter := h.p05Counter
  rw [protect, if_neg h.not_short] at hr
  obtain rfl := Except.ok.inj hr
  unfold protectChecked
  dsimp only
  rw [bind_of_eq_some (store_eq (by omega) _),
    bind_of_eq_some (computeCrcChecked_eq (by rw [List.length_set]; omega)),
    bind_of_eq_some (store_eq (by rw [List.length_set]; omega) _),
    bind_of_eq_some (store_eq (by rw [List.length_set, List.length_set]; omega) _)]
  rfl

theorem Profile05Checker.checkChecked_eq {c : Profile05Checker} {data : List UInt8}
    (h : Covers c.config.offset kP05HeaderLen data) {r : CheckStatus × Profile05Checker}
    (hr : c.check data = .ok r) : c.checkChecked data = some r := by
  have hheader : c.config.offset.toNat + 3 ≤ data.length := h.header
  have hcrc := h.p05CrcHigh
  have hcounter := h.p05Counter
  rw [check, if_neg h.not_short] at hr
  unfold checkChecked
  rw [bind_of_eq_some (load_eq (by omega)), bind_of_eq_some (load_eq (by omega)),
    bind_of_eq_some (computeCrcChecked_eq (by omega))]
  unfold storedCrc byteAt at hr
  split at hr
  · next hne =>
    rw [if_pos hne]
    exact congrArg some (Except.ok.inj hr)
  · next heq =>
    rw [if_neg heq, bind_of_eq_some (load_eq (by omega))]
    dsimp only at hr
    split at hr
    · next hfirst =>
      rw [if_pos hfirst]
      exact congrArg some (Except.ok.inj hr)
    · next hlater =>
      rw [if_neg hlater]
      exact congrArg some (Except.ok.inj hr)

/-- A run that stays inside has its three header bytes inside. -/
theorem Profile05Protector.protectChecked_some {p : Profile05Protector} {data : List UInt8}
    {r : List UInt8 × Profile05Protector} (h : p.protectChecked data = some r) :
    p.config.offset.toNat < data.length ∧ (p.config.offset + 1).toNat < data.length ∧
      (p.config.offset + kP05CounterPos).toNat < data.length := by
  unfold protectChecked at h
  obtain ⟨data₁, hcounter, h⟩ := Option.bind_eq_some_iff.mp h
  obtain ⟨crc, -, h⟩ := Option.bind_eq_some_iff.mp h
  obtain ⟨data₂, hlow, h⟩ := Option.bind_eq_some_iff.mp h
  obtain ⟨data₃, hhigh, -⟩ := Option.bind_eq_some_iff.mp h
  obtain ⟨hcounterIn, rfl⟩ := store_some hcounter
  obtain ⟨hlowIn, rfl⟩ := store_some hlow
  obtain ⟨hhighIn, -⟩ := store_some hhigh
  rw [List.length_set] at hlowIn
  rw [List.length_set, List.length_set] at hhighIn
  exact ⟨hlowIn, hhighIn, hcounterIn⟩

/-! ## Profile 11 -/

/-- One resumed segment, where the code runs it. -/
def crcSegmentChecked (data : List UInt8) (present : Bool) (a b : Nat) (crc : UInt8) : Option UInt8 :=
  if present then (loadRange data a b).map (crc8SaeJ1850 · crc false) else some crc

def computeP11CrcChecked (data : List UInt8) (cfg : Profile11Config) : Option UInt8 := do
  let idLo := (cfg.dataId &&& 0xFF).toUInt8
  let idHi := if cfg.dataIdMode = .kBoth then ((cfg.dataId >>> 8) &&& 0xFF).toUInt8 else 0x00
  let crc := crc8SaeJ1850 [idLo] kP11CrcXor false
  let crc := crc8SaeJ1850 [idHi] crc false
  let crc ← crcSegmentChecked data (cfg.offset > 0) 0 cfg.offset.toNat crc
  let after := (cfg.offset + 1).toNat
  let crc ← crcSegmentChecked data (after < data.length) after data.length crc
  return crc ^^^ kP11CrcXor

/-- `protect` behind its length check. -/
def Profile11Protector.protectChecked (p : Profile11Protector) (data : List UInt8) :
    Option (List UInt8 × Profile11Protector) := do
  let hdr1 := (p.config.offset + 1).toNat
  let counter := UInt8.ofNat ((p.counter.toNat + 1) % kP11CounterModulus)
  let old ← load data hdr1
  let data ← store data hdr1 (p11HeaderByte p.config counter old)
  let crc ← computeP11CrcChecked data p.config
  let data ← store data p.config.offset.toNat crc
  return (data, { p with counter := counter })

/-- `check` behind its length check. -/
def Profile11Checker.checkChecked (c : Profile11Checker) (data : List UInt8) :
    Option (CheckStatus × Profile11Checker) := do
  let stored ← load data c.config.offset.toNat
  let crc ← computeP11CrcChecked data c.config
  if stored ≠ crc then return (.kError, c)
  else
    let byte ← load data (c.config.offset + 1).toNat
    let rx := byte &&& 0x0F
    if !c.haveLast then return (.kOk, { c with haveLast := true, lastCounter := rx })
    else
      let delta := UInt8.ofNat
        ((rx.toNat + kP11CounterModulus - c.lastCounter.toNat) % kP11CounterModulus)
      return (classifyCounter delta c.config.maxDeltaCounter, { c with lastCounter := rx })

theorem computeP11CrcChecked_eq {data : List UInt8} {cfg : Profile11Config}
    (h : cfg.offset.toNat ≤ data.length) :
    computeP11CrcChecked data cfg = some (computeP11Crc data cfg) := by
  have hfront : ∀ crc, crcSegmentChecked data (cfg.offset > 0) 0 cfg.offset.toNat crc =
      some (if cfg.offset > 0 then crc8SaeJ1850 (data.take cfg.offset.toNat) crc false else crc) := by
    intro crc
    rw [crcSegmentChecked, loadRange_front h]
    simp only [decide_eq_true_eq]
    split <;> rfl
  have hback : ∀ crc, crcSegmentChecked data ((cfg.offset + 1).toNat < data.length)
      (cfg.offset + 1).toNat data.length crc =
      some (if (cfg.offset + 1).toNat < data.length then
        crc8SaeJ1850 (data.drop (cfg.offset + 1).toNat) crc false else crc) := by
    intro crc
    rw [crcSegmentChecked, loadRange_back]
    simp only [decide_eq_true_eq]
    split <;> rfl
  unfold computeP11CrcChecked computeP11Crc
  dsimp only
  rw [bind_of_eq_some (hfront _), bind_of_eq_some (hback _)]
  rfl

theorem Profile11Protector.protectChecked_eq {p : Profile11Protector} {data : List UInt8}
    (h : Covers p.config.offset kP11HeaderLen data) {r : List UInt8 × Profile11Protector}
    (hr : p.protect data = .ok r) : p.protectChecked data = some r := by
  have hheader : p.config.offset.toNat + 2 ≤ data.length := h.header
  have hcounter := h.p11Counter
  rw [protect, if_neg h.not_short] at hr
  obtain rfl := Except.ok.inj hr
  unfold protectChecked
  dsimp only
  rw [bind_of_eq_some (load_eq (by omega)), bind_of_eq_some (store_eq (by omega) _),
    bind_of_eq_some (computeP11CrcChecked_eq (by rw [List.length_set]; omega)),
    bind_of_eq_some (store_eq (by rw [List.length_set]; omega) _)]
  rfl

theorem Profile11Checker.checkChecked_eq {c : Profile11Checker} {data : List UInt8}
    (h : Covers c.config.offset kP11HeaderLen data) {r : CheckStatus × Profile11Checker}
    (hr : c.check data = .ok r) : c.checkChecked data = some r := by
  have hheader : c.config.offset.toNat + 2 ≤ data.length := h.header
  have hcounter := h.p11Counter
  rw [check, if_neg h.not_short] at hr
  unfold checkChecked
  rw [bind_of_eq_some (load_eq (by omega)), bind_of_eq_some (computeP11CrcChecked_eq (by omega))]
  unfold byteAt at hr
  split at hr
  · next hne =>
    rw [if_pos hne]
    exact congrArg some (Except.ok.inj hr)
  · next heq =>
    rw [if_neg heq, bind_of_eq_some (load_eq (by omega))]
    dsimp only at hr ⊢
    split at hr
    · next hfirst =>
      rw [if_pos hfirst]
      exact congrArg some (Except.ok.inj hr)
    · next hlater =>
      rw [if_neg hlater]
      exact congrArg some (Except.ok.inj hr)

theorem Profile11Protector.protectChecked_some {p : Profile11Protector} {data : List UInt8}
    {r : List UInt8 × Profile11Protector} (h : p.protectChecked data = some r) :
    p.config.offset.toNat < data.length ∧ (p.config.offset + 1).toNat < data.length := by
  unfold protectChecked at h
  obtain ⟨old, -, h⟩ := Option.bind_eq_some_iff.mp h
  obtain ⟨data₁, hcounter, h⟩ := Option.bind_eq_some_iff.mp h
  obtain ⟨crc, -, h⟩ := Option.bind_eq_some_iff.mp h
  obtain ⟨data₂, hcrc, -⟩ := Option.bind_eq_some_iff.mp h
  obtain ⟨hcounterIn, rfl⟩ := store_some hcounter
  obtain ⟨hcrcIn, -⟩ := store_some hcrc
  rw [List.length_set] at hcrcIn
  exact ⟨hcrcIn, hcounterIn⟩

/-! ## The NM PDU -/

namespace Nm

variable {m : StateMachine}

/-- `pdu[off] |= bits`, where the code does it. -/
def orAtChecked (present : Bool) (pdu : List UInt8) (off : UInt64) (bits : UInt8) :
    Option (List UInt8) :=
  if present then orByte pdu off.toNat bits else some pdu

/-- One turn of the loop over the user data. -/
def storeUserData (m : StateMachine) (pdu : List UInt8) (i : Nat) : Option (List UInt8) := do
  let byte ← load m.userData i
  store pdu (m.layout.userDataOff + UInt64.ofNat i).toNat byte

/-- `buildPdu` behind the allocation of its vector. -/
def StateMachine.buildPduChecked (m : StateMachine) : Option (List UInt8) := do
  let pdu := List.replicate m.layout.pduLength.toNat 0x00
  let pdu ← store pdu m.layout.sourceNodeIdOff.toNat m.nodeId
  let pdu ← orAtChecked (m.repeatRequested ∧ m.state = .kRepeatMessage) pdu m.layout.controlBitVectorOff
    kCbvRepeatMessageRequest
  let pdu ← orAtChecked m.activeWakeup pdu m.layout.controlBitVectorOff kCbvActiveWakeup
  (List.range m.layout.userDataLen.toNat).foldlM (storeUserData m) pdu

theorem orAtChecked_eq {present : Bool} {pdu : List UInt8} {off : UInt64} (h : off.toNat < pdu.length)
    (bits : UInt8) :
    orAtChecked present pdu off bits = some (if present then StateMachine.orAt pdu off bits else pdu) := by
  unfold orAtChecked
  split
  · rw [orByte_eq h, StateMachine.orAt]
  · rfl

theorem length_orAt (pdu : List UInt8) (off : UInt64) (bits : UInt8) :
    (StateMachine.orAt pdu off bits).length = pdu.length := List.length_modify ..

theorem storeUserData_run {pdu : List UInt8} {n : Nat} (hdata : n ≤ m.userData.length)
    (hpdu : ∀ i < n, (m.layout.userDataOff + UInt64.ofNat i).toNat < pdu.length) :
    (List.range n).foldlM (storeUserData m) pdu =
      some ((List.range n).foldl (fun pdu i =>
        pdu.set (m.layout.userDataOff + UInt64.ofNat i).toNat (m.userData.getD i 0)) pdu) := by
  refine foldlM_eq_some (fun pdu' => pdu'.length = pdu.length) rfl fun i hi pdu' hlength => ?_
  have hlt := List.mem_range.mp hi
  refine ⟨?_, by rw [List.length_set, hlength]⟩
  rw [storeUserData, bind_of_eq_some (load_eq (by omega)), store_eq (by rw [hlength]; exact hpdu i hlt)]

/-- A loop that stays inside the PDU has every index inside. -/
theorem storeUserData_run_some {pdu pdu' : List UInt8} {n : Nat}
    (h : (List.range n).foldlM (storeUserData m) pdu = some pdu') :
    pdu'.length = pdu.length ∧
      ∀ i < n, (m.layout.userDataOff + UInt64.ofNat i).toNat < pdu.length := by
  induction n generalizing pdu' with
  | zero => exact ⟨by rw [← Option.some.inj h], nofun⟩
  | succ n ih =>
    rw [List.range_succ, List.foldlM_append] at h
    obtain ⟨before, hbefore, hlast⟩ := Option.bind_eq_some_iff.mp h
    obtain ⟨hlength, hin⟩ := ih hbefore
    rw [List.foldlM_cons] at hlast
    obtain ⟨stored, hstored, hend⟩ := Option.bind_eq_some_iff.mp hlast
    obtain ⟨byte, -, hstore⟩ := Option.bind_eq_some_iff.mp hstored
    obtain ⟨hlt, rfl⟩ := store_some hstore
    rw [← Option.some.inj hend, List.length_set]
    refine ⟨hlength, fun i hi => ?_⟩
    rcases Nat.lt_or_eq_of_le (Nat.le_of_lt_succ hi) with hlt' | rfl
    · exact hin i hlt'
    · exact hlength ▸ hlt

/-- The user data always has the configured length. -/
def FitsUserData (m : StateMachine) : Prop := m.userData.length = m.layout.userDataLen.toNat

theorem userData_transmit : (StateMachine.left m.transmit).userData = m.userData := by
  rw [left_transmit]
  split <;> rfl

theorem userData_transitionTo (next : State) : (m.transitionTo next).userData = m.userData := by
  unfold StateMachine.transitionTo
  split
  · rfl
  · cases next with
    | kRepeatMessage => exact userData_transmit
    | kNormalOperation => exact userData_transmit
    | kBusSleep | kPrepareBusSleep | kReadySleep => rfl

theorem userData_cycle (elapsed : Int) :
    (StateMachine.left (m.cycle elapsed)).userData = m.userData := by
  unfold StateMachine.cycle
  dsimp only
  split
  · exact userData_transmit
  · rfl

theorem userData_step {op : Op} (hop : ∀ data, op ≠ .setUserData data) :
    (step m op).userData = m.userData := by
  cases op with
  | requestNetwork =>
    change m.requestNetwork.userData = m.userData
    unfold StateMachine.requestNetwork
    dsimp only
    split
    · exact userData_transitionTo _
    · split
      · exact userData_transitionTo _
      · rfl
  | releaseNetwork =>
    change m.releaseNetwork.userData = m.userData
    unfold StateMachine.releaseNetwork
    dsimp only
    split
    · exact userData_transitionTo _
    · rfl
  | requestRepeatMessage =>
    change m.requestRepeatMessage.userData = m.userData
    unfold StateMachine.requestRepeatMessage
    dsimp only
    split
    · rfl
    · split
      · rfl
      · exact userData_transitionTo _
  | rxNmPdu pdu =>
    change (m.rxNmPdu pdu).userData = m.userData
    unfold StateMachine.rxNmPdu
    dsimp only
    split
    · exact userData_transitionTo _
    · split
      · split
        · rfl
        · exact userData_transitionTo _
      · rfl
  | mainFunction elapsed =>
    change (m.mainFunction elapsed).userData = m.userData
    unfold StateMachine.mainFunction
    split
    · rfl
    · have hcycled := userData_cycle (m := m) elapsed
      cases hcycle : m.cycle elapsed with
      | error thrown =>
        rw [hcycle] at hcycled
        exact hcycled
      | ok cycled =>
        rw [hcycle] at hcycled
        dsimp only
        split
        · exact (userData_transitionTo _).trans hcycled
        · exact hcycled
    · exact userData_cycle elapsed
    · dsimp only
      split
      · exact userData_transitionTo _
      · rfl
    · dsimp only
      split
      · exact userData_transitionTo _
      · rfl
  | setUserData data => exact absurd rfl (hop data)

theorem FitsUserData.step (h : FitsUserData m) (op : Op) : FitsUserData (step m op) := by
  unfold FitsUserData
  rw [layout_step]
  by_cases hop : ∃ data, op = .setUserData data
  · obtain ⟨data, rfl⟩ := hop
    change (m.setUserData data).userData.length = _
    unfold StateMachine.setUserData
    dsimp only
    rw [List.length_append, List.length_take, List.length_replicate]
    omega
  · rw [userData_step fun data heq => hop ⟨data, heq⟩]
    exact h

theorem FitsUserData.run (h : FitsUserData m) (ops : List Op) : FitsUserData (ops.foldl Nm.step m) := by
  induction ops generalizing m with
  | nil => exact h
  | cons op ops ih => exact ih (h.step op)

/-- What the constructor has checked. -/
theorem create_ok {timing : Timing} {layout : PduLayout} {nodeId : UInt8}
    (h : StateMachine.create timing layout nodeId = .ok m) :
    m.layout = layout ∧ FitsUserData m ∧ layout.sourceNodeIdOff.toNat < layout.pduLength.toNat ∧
      layout.controlBitVectorOff.toNat < layout.pduLength.toNat ∧
      (layout.userDataOff + layout.userDataLen).toNat ≤ layout.pduLength.toNat := by
  obtain ⟨haccepted, rfl⟩ := create_ok_iff.mp h
  rw [PduLayout.Rejected, not_or, not_or, not_or] at haccepted
  obtain ⟨-, hsource, hcbv, hdata⟩ := haccepted
  rw [ge_iff_le, UInt64.le_iff_toNat_le, not_le] at hsource hcbv
  rw [gt_iff_lt, UInt64.lt_iff_toNat_lt, not_lt] at hdata
  exact ⟨rfl, List.length_replicate, hsource, hcbv, hdata⟩

theorem buildPduChecked_eq (hfits : FitsUserData m)
    (hsource : m.layout.sourceNodeIdOff.toNat < m.layout.pduLength.toNat)
    (hcbv : m.layout.controlBitVectorOff.toNat < m.layout.pduLength.toNat)
    (hdata : ∀ i < m.layout.userDataLen.toNat,
      (m.layout.userDataOff + UInt64.ofNat i).toNat < m.layout.pduLength.toNat) :
    m.buildPduChecked = some m.pduBytes := by
  let pdu := (List.replicate m.layout.pduLength.toNat (0x00 : UInt8)).set m.layout.sourceNodeIdOff.toNat
    m.nodeId
  let repeats := decide (m.repeatRequested ∧ m.state = .kRepeatMessage)
  let pdu' := if repeats then
    StateMachine.orAt pdu m.layout.controlBitVectorOff kCbvRepeatMessageRequest else pdu
  let pdu'' := if m.activeWakeup then
    StateMachine.orAt pdu' m.layout.controlBitVectorOff kCbvActiveWakeup else pdu'
  have hpdu : pdu.length = m.layout.pduLength.toNat := by
    rw [List.length_set, List.length_replicate]
  have hpdu' : pdu'.length = m.layout.pduLength.toNat := by
    unfold pdu'
    split
    · rw [length_orAt, hpdu]
    · exact hpdu
  have hpdu'' : pdu''.length = m.layout.pduLength.toNat := by
    unfold pdu''
    split
    · rw [length_orAt, hpdu']
    · exact hpdu'
  have hstored : store (List.replicate m.layout.pduLength.toNat 0x00) m.layout.sourceNodeIdOff.toNat
      m.nodeId = some pdu := store_eq (by rwa [List.length_replicate]) _
  have hrepeat : orAtChecked repeats pdu m.layout.controlBitVectorOff kCbvRepeatMessageRequest =
      some pdu' := orAtChecked_eq (by rwa [hpdu]) _
  have hwakeup : orAtChecked m.activeWakeup pdu' m.layout.controlBitVectorOff kCbvActiveWakeup =
      some pdu'' := orAtChecked_eq (by rwa [hpdu']) _
  unfold StateMachine.buildPduChecked
  dsimp only
  rw [bind_of_eq_some hstored, bind_of_eq_some hrepeat, bind_of_eq_some hwakeup,
    storeUserData_run hfits.ge fun i hi => by rw [hpdu'']; exact hdata i hi]
  unfold pdu'' pdu' repeats
  simp only [decide_eq_true_eq]
  rfl

theorem length_orAtChecked {present : Bool} {pdu pdu' : List UInt8} {off : UInt64} {bits : UInt8}
    (h : orAtChecked present pdu off bits = some pdu') : pdu'.length = pdu.length := by
  unfold orAtChecked at h
  split at h
  · exact (orByte_some h).2
  · rw [← Option.some.inj h]

/-- A PDU that is built inside its bounds has all of its user data inside. -/
theorem buildPduChecked_some {pdu : List UInt8} (h : m.buildPduChecked = some pdu) :
    ∀ i < m.layout.userDataLen.toNat,
      (m.layout.userDataOff + UInt64.ofNat i).toNat < m.layout.pduLength.toNat := by
  unfold StateMachine.buildPduChecked at h
  obtain ⟨stored, hstored, h⟩ := Option.bind_eq_some_iff.mp h
  obtain ⟨repeated, hrepeated, h⟩ := Option.bind_eq_some_iff.mp h
  obtain ⟨woken, hwoken, h⟩ := Option.bind_eq_some_iff.mp h
  have hlength : woken.length = m.layout.pduLength.toNat := by
    rw [length_orAtChecked hwoken, length_orAtChecked hrepeated, (store_some hstored).2,
      List.length_set, List.length_replicate]
  rw [← hlength]
  exact (storeUserData_run_some h).2

/-- Every PDU that a machine with this layout comes to build is built inside its bounds. -/
def InBounds (layout : PduLayout) : Prop :=
  ∀ timing nodeId m, StateMachine.create timing layout nodeId = .ok m →
    ∀ (ops : List Op) pdu, (ops.foldl step m).buildPdu = .ok pdu →
      (ops.foldl step m).buildPduChecked = some pdu

theorem buildPdu_ok_iff {pdu : List UInt8} :
    m.buildPdu = .ok pdu ↔ m.layout.pduLength.toNat ≤ maxSize ∧ pdu = m.pduBytes := by
  unfold StateMachine.buildPdu
  split
  · next hlong => exact iff_of_false (by simp) fun h => Nat.not_lt.mpr h.1 hlong
  · next hshort =>
    rw [Except.ok.injEq, eq_comm]
    exact (and_iff_right (Nat.not_lt.mp hshort)).symm

theorem inBounds_iff (layout : PduLayout) :
    InBounds layout ↔ layout.Rejected ∨ layout.pduLength.toNat > maxSize ∨
      layout.userDataOff.toNat + layout.userDataLen.toNat < 2 ^ 64 := by
  constructor
  · intro h
    by_contra hwraps
    rw [not_or, not_or] at hwraps
    obtain ⟨haccepted, hbuilds, hwrap⟩ := hwraps
    let m := StateMachine.initial ⟨0, 0, 0, 0⟩ layout 0
    have hbuilt : m.buildPduChecked = some m.pduBytes :=
      h ⟨0, 0, 0, 0⟩ 0 m (create_ok_iff.mpr ⟨haccepted, rfl⟩) [] m.pduBytes
        (buildPdu_ok_iff.mpr ⟨Nat.not_lt.mp hbuilds, rfl⟩)
    have hin := buildPduChecked_some hbuilt
    change ∀ i < layout.userDataLen.toNat,
      (layout.userDataOff + UInt64.ofNat i).toNat < layout.pduLength.toNat at hin
    have hoff := layout.userDataOff.toNat_lt
    -- the last index before the sum wraps is the largest there is
    have hlast := hin (2 ^ 64 - 1 - layout.userDataOff.toNat) (by omega)
    have hpdu := layout.pduLength.toNat_lt
    rw [UInt64.toNat_add, UInt64.toNat_ofNat', Nat.mod_eq_of_lt (by omega : _ < 2 ^ 64),
      Nat.mod_eq_of_lt (by omega)] at hlast
    omega
  · rintro hcond timing nodeId m hnew ops pdu hpdu
    obtain ⟨hlayout, hfits, hsource, hcbv, hguard⟩ := create_ok hnew
    subst hlayout
    have hkept : (ops.foldl step m).layout = m.layout := layout_run ops
    obtain ⟨hbuilds, rfl⟩ := buildPdu_ok_iff.mp hpdu
    rw [hkept] at hbuilds
    rcases hcond with hrejected | hlong | hsum
    · exact absurd hrejected (create_ok_iff.mp hnew).1
    · exact absurd hlong (Nat.not_lt.mpr hbuilds)
    · refine buildPduChecked_eq (hfits.run ops) ?_ ?_ ?_
      · rwa [hkept]
      · rwa [hkept]
      · intro i hi
        rw [hkept] at hi ⊢
        rw [UInt64.toNat_add, Nat.mod_eq_of_lt hsum] at hguard
        rw [UInt64.toNat_add, UInt64.toNat_ofNat', Nat.mod_eq_of_lt (by omega : i < 2 ^ 64),
          Nat.mod_eq_of_lt (by omega)]
        omega

end Nm

/-! ## The PN filter -/

/-- `PnConfig`. -/
structure PnFilter where
  pniOffset : UInt64
  pniLen : UInt64
  deriving DecidableEq, Repr

def PnFilter.create (config : PnFilter) : Except String PnFilter :=
  if config.pniLen = 0 then .error "tc8::pn::PnFilter: pni_len must be non-zero" else .ok config

/-- The loop of `relevant`, which ends at the first byte that shares a bit. -/
def PnFilter.shares (f : PnFilter) (nmPdu myClusters : List UInt8) : List Nat → Bool
  | [] => false
  | i :: is =>
    if nmPdu.getD (f.pniOffset + UInt64.ofNat i).toNat 0 &&& myClusters.getD i 0 ≠ 0 then true
    else f.shares nmPdu myClusters is

/-- The PN range is not inside the PDU. -/
def PnFilter.absent (f : PnFilter) (nmPdu : List UInt8) : Prop :=
  f.pniOffset.toNat > nmPdu.length ∨ f.pniLen.toNat > nmPdu.length - f.pniOffset.toNat

instance (f : PnFilter) (nmPdu : List UInt8) : Decidable (f.absent nmPdu) :=
  inferInstanceAs (Decidable (_ ∨ _))

def PnFilter.relevant (f : PnFilter) (nmPdu myClusters : List UInt8) : Except String Bool :=
  if myClusters.length ≠ f.pniLen.toNat then
    .error "tc8::pn::PnFilter::relevant: my_clusters must be pni_len bytes"
  else if f.absent nmPdu then .ok false
  else .ok (f.shares nmPdu myClusters (List.range f.pniLen.toNat))

def PnFilter.sharesChecked (f : PnFilter) (nmPdu myClusters : List UInt8) : List Nat → Option Bool
  | [] => some false
  | i :: is => do
    let requested ← load nmPdu (f.pniOffset + UInt64.ofNat i).toNat
    let mine ← load myClusters i
    if requested &&& mine ≠ 0 then return true
    else f.sharesChecked nmPdu myClusters is

/-- `relevant` behind its size check. -/
def PnFilter.relevantChecked (f : PnFilter) (nmPdu myClusters : List UInt8) : Option Bool :=
  if f.absent nmPdu then some false
  else f.sharesChecked nmPdu myClusters (List.range f.pniLen.toNat)

theorem PnFilter.sharesChecked_eq {f : PnFilter} {nmPdu myClusters : List UInt8} {is : List Nat}
    (hpdu : ∀ i ∈ is, (f.pniOffset + UInt64.ofNat i).toNat < nmPdu.length)
    (hmine : ∀ i ∈ is, i < myClusters.length) :
    f.sharesChecked nmPdu myClusters is = some (f.shares nmPdu myClusters is) := by
  induction is with
  | nil => rfl
  | cons i is ih =>
    rw [sharesChecked, shares, bind_of_eq_some (load_eq (hpdu i List.mem_cons_self)),
      bind_of_eq_some (load_eq (hmine i List.mem_cons_self))]
    split
    · rfl
    · exact ih (fun j hj => hpdu j (List.mem_cons_of_mem _ hj))
        fun j hj => hmine j (List.mem_cons_of_mem _ hj)

/-- The subtraction of the guard leaves nothing to wrap. -/
theorem PnFilter.relevantChecked_eq {f : PnFilter} {nmPdu myClusters : List UInt8}
    (hsize : nmPdu.length < 2 ^ 64) {b : Bool} (h : f.relevant nmPdu myClusters = .ok b) :
    f.relevantChecked nmPdu myClusters = some b := by
  unfold relevant at h
  unfold relevantChecked
  split at h
  · nomatch h
  · next hclusters =>
    split at h
    · next habsent =>
      rw [if_pos habsent]
      exact congrArg some (Except.ok.inj h)
    · next hpresent =>
      rw [if_neg hpresent, ← Except.ok.inj h]
      rw [absent, not_or] at hpresent
      refine sharesChecked_eq ?_ ?_
      · intro i hi
        have hlt := List.mem_range.mp hi
        rw [UInt64.toNat_add, UInt64.toNat_ofNat', Nat.mod_eq_of_lt (by omega : i < 2 ^ 64),
          Nat.mod_eq_of_lt (by omega)]
        omega
      · intro i hi
        have hlt := List.mem_range.mp hi
        omega

/-! ## All of them -/

/-- A buffer whose length is a `size_t`. -/
abbrev Buffer := { data : List UInt8 // data.length < 2 ^ 64 }

/-- Neither side of Profile 5 leaves the buffer. -/
def Profile05InBounds (cfg : Profile05Config) (data : List UInt8) : Prop :=
  (∀ p : Profile05Protector, p.config = cfg → ∀ r, p.protect data = .ok r →
      p.protectChecked data = some r) ∧
    ∀ c : Profile05Checker, c.config = cfg → ∀ r, c.check data = .ok r → c.checkChecked data = some r

/-- Neither side of Profile 11 leaves the buffer. -/
def Profile11InBounds (cfg : Profile11Config) (data : List UInt8) : Prop :=
  (∀ p : Profile11Protector, p.config = cfg → ∀ r, p.protect data = .ok r →
      p.protectChecked data = some r) ∧
    ∀ c : Profile11Checker, c.config = cfg → ∀ r, c.check data = .ok r → c.checkChecked data = some r

/-- A header that is not too long for the buffer, and whose end does not wrap, is inside it. -/
theorem covers_of_not_short {offset headerLen : UInt64} {data : List UInt8}
    (hsize : data.length < 2 ^ 64) (hlong : ¬ data.length < (offset + headerLen).toNat)
    (hsum : offset.toNat + headerLen.toNat < 2 ^ 64) : Covers offset headerLen data := by
  rw [UInt64.toNat_add, Nat.mod_eq_of_lt hsum] at hlong
  exact ⟨Nat.le_of_not_lt hlong, hsize⟩

theorem profile05_in_bounds_iff (cfg : Profile05Config) (data : Buffer) :
    Profile05InBounds cfg data.1 ↔ data.1.length < (cfg.offset + kP05HeaderLen).toNat ∨
      cfg.offset.toNat + kP05HeaderLen.toNat < 2 ^ 64 := by
  by_cases hshort : data.1.length < (cfg.offset + kP05HeaderLen).toNat
  · refine iff_of_true ⟨?_, ?_⟩ (.inl hshort)
    · rintro p rfl r hr
      rw [Profile05Protector.protect, if_pos hshort] at hr
      cases hr
    · rintro c rfl r hr
      rw [Profile05Checker.check, if_pos hshort] at hr
      cases hr
  · rw [or_iff_right hshort]
    constructor
    · rintro ⟨hprotect, -⟩
      have hok := hprotect ⟨cfg, 0⟩ rfl _ (by rw [Profile05Protector.protect, if_neg hshort])
      obtain ⟨hlow, hhigh, hcounter⟩ := Profile05Protector.protectChecked_some hok
      have hlen : kP05HeaderLen.toNat = 3 := rfl
      have hpos : kP05CounterPos.toNat = 2 := rfl
      have hone : (1 : UInt64).toNat = 1 := rfl
      have hoff := cfg.offset.toNat_lt
      have hsize := data.2
      rw [UInt64.toNat_add, hone] at hhigh
      rw [UInt64.toNat_add, hpos] at hcounter
      dsimp only at hlow hhigh hcounter
      omega
    · intro hsum
      refine ⟨?_, ?_⟩
      · rintro p rfl r hr
        exact Profile05Protector.protectChecked_eq (covers_of_not_short data.2 hshort hsum) hr
      · rintro c rfl r hr
        exact Profile05Checker.checkChecked_eq (covers_of_not_short data.2 hshort hsum) hr

theorem profile11_in_bounds_iff (cfg : Profile11Config) (data : Buffer) :
    Profile11InBounds cfg data.1 ↔ data.1.length < (cfg.offset + kP11HeaderLen).toNat ∨
      cfg.offset.toNat + kP11HeaderLen.toNat < 2 ^ 64 := by
  by_cases hshort : data.1.length < (cfg.offset + kP11HeaderLen).toNat
  · refine iff_of_true ⟨?_, ?_⟩ (.inl hshort)
    · rintro p rfl r hr
      rw [Profile11Protector.protect, if_pos hshort] at hr
      cases hr
    · rintro c rfl r hr
      rw [Profile11Checker.check, if_pos hshort] at hr
      cases hr
  · rw [or_iff_right hshort]
    constructor
    · rintro ⟨hprotect, -⟩
      have hok := hprotect ⟨cfg, 0⟩ rfl _ (by rw [Profile11Protector.protect, if_neg hshort])
      obtain ⟨hcrc, hcounter⟩ := Profile11Protector.protectChecked_some hok
      have hlen : kP11HeaderLen.toNat = 2 := rfl
      have hone : (1 : UInt64).toNat = 1 := rfl
      have hoff := cfg.offset.toNat_lt
      have hsize := data.2
      rw [UInt64.toNat_add, hone] at hcounter
      dsimp only at hcrc hcounter
      omega
    · intro hsum
      refine ⟨?_, ?_⟩
      · rintro p rfl r hr
        exact Profile11Protector.protectChecked_eq (covers_of_not_short data.2 hshort hsum) hr
      · rintro c rfl r hr
        exact Profile11Checker.checkChecked_eq (covers_of_not_short data.2 hshort hsum) hr

/-- **Configured offsets.** A profile, or an NM machine, that accepts its configuration and comes to its
buffer stays inside it exactly when the sum it has checked does not wrap; the PN filter always does. -/
theorem offsets_in_bounds_iff (cfg05 : Profile05Config) (cfg11 : Profile11Config)
    (layout : Nm.PduLayout) (filter : PnFilter) (data : Buffer) (myClusters : List UInt8) :
    (Profile05InBounds cfg05 data.1 ↔ data.1.length < (cfg05.offset + kP05HeaderLen).toNat ∨
      cfg05.offset.toNat + kP05HeaderLen.toNat < 2 ^ 64) ∧
    (Profile11InBounds cfg11 data.1 ↔ data.1.length < (cfg11.offset + kP11HeaderLen).toNat ∨
      cfg11.offset.toNat + kP11HeaderLen.toNat < 2 ^ 64) ∧
    (Nm.InBounds layout ↔ layout.Rejected ∨ layout.pduLength.toNat > Nm.maxSize ∨
      layout.userDataOff.toNat + layout.userDataLen.toNat < 2 ^ 64) ∧
    ∀ b, filter.relevant data.1 myClusters = .ok b → filter.relevantChecked data.1 myClusters = some b :=
  ⟨profile05_in_bounds_iff cfg05 data, profile11_in_bounds_iff cfg11 data, Nm.inBounds_iff layout,
    fun _ h => PnFilter.relevantChecked_eq data.2 h⟩

/-- A Profile 5 header at the largest offset passes the length check of four bytes and is outside them. -/
theorem not_profile05_in_bounds : ¬ Profile05InBounds ⟨0x1234, 0xFFFFFFFFFFFFFFFF, 1⟩ [0, 0, 0, 0] := by
  intro h
  have hin := (profile05_in_bounds_iff ⟨0x1234, 0xFFFFFFFFFFFFFFFF, 1⟩ ⟨[0, 0, 0, 0], by decide⟩).mp h
  revert hin
  decide

end Tc8Harness.Autosar
