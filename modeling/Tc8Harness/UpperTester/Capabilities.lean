import Tc8Harness.Lib.CheckedAccess
import Tc8Harness.UpperTester.Extensions
import Tc8Harness.UpperTester.SocketRuns

/-!
# What the server advertises

`registerOpcode` and `UpperTesterServer::start` of `src/upper_tester/ut_server.cpp`, and the packing of the
capability bitmap of `tc8/upper_tester_protocol.h`. The table of handlers is read three ways: a request
finds its handler in it, QueryCapabilities answers its bitmap, and Ping the top of its contiguous block.
The bitmap is an array of `kCapabilityBitmapBytes` bytes that `start` indexes without a check; a write
outside it has no meaning here, and `start` is then `none`. What a platform registers is a parameter
(`Behaved`); both platforms of the repository are instances (`platform_advertises`).
-/

namespace Tc8Harness.UpperTester

open Hoare CheckedAccess
open Testability (Endpoint)

variable {σ : Type}

/-! ## The table -/

/-- `handlers_[opcode] = handler`, over what was registered before. -/
def registerOpcode (registered : UInt8 → Option (Handler σ)) (opcode : UInt8) (handler : Handler σ) :
    UInt8 → Option (Handler σ) :=
  fun op => if op = opcode then some handler else registered op

def registerAll (registrations : List (UInt8 × Handler σ)) : UInt8 → Option (Handler σ) :=
  registrations.foldl (fun registered r => registerOpcode registered r.1 r.2) fun _ => none

/-- `handlers_.count(op) != 0`. -/
def serves (env : Env σ) (registered : UInt8 → Option (Handler σ)) (op : UInt8) : Bool :=
  ((registered op).or (builtin env op)).isSome

/-! ## The capability surface -/

/-- The keys of the table, in order. -/
def opcodes (served : UInt8 → Bool) : List UInt8 := ((List.range 256).map UInt8.ofNat).filter served

/-- `1u << (op % 8u)`. -/
def capabilityBit (op : UInt8) : UInt8 := 1 <<< (op % 8)

/-- The loop that packs the bitmap. -/
def deriveBitmap (served : UInt8 → Bool) : Option (List UInt8) :=
  (opcodes served).foldlM (fun bitmap op => orByte bitmap (op.toNat / 8) (capabilityBit op))
    (List.replicate kCapabilityBitmapBytes 0)

/-- The loop that looks for the contiguous top, `fuel` turns of it. -/
def contiguousTop (served : UInt8 → Bool) : Nat → UInt8 → UInt8 → Option UInt8
  | 0, _, _ => none
  | fuel + 1, op, top => if served op then contiguousTop served fuel (op + 1) op else some top

def capabilityBitSet (bitmap : List UInt8) (len : Nat) (op : UInt8) : Bool :=
  decide (op.toNat / 8 < len) && bitmap.getD (op.toNat / 8) 0 &&& capabilityBit op != 0

/-- What `start` does about its sockets; `dataFd` is what the probe gave it for the data listener. -/
def openSockets (env : Env σ) (dataFd : Int) (utPort : UInt16) : UT σ Bool := do
  if dataFd < 0 then return false
  else
    let utFd ← call env .createUdp
    modify fun s => { s with utFd }
    if utFd < 0 then
      call env (.closeFd dataFd)
      return false
    else
      call env (.setReuseAddr utFd)
      call env (.setRecvTimeoutMs utFd 200)
      if ← call env (.bindV4 utFd 0 utPort) then return true
      else
        call env (.closeFd utFd)
        call env (.closeFd dataFd)
        modify fun s => { s with utFd := -1 }
        return false

/-- `start`, up to its threads. -/
def start (env : Env σ) (registered : UInt8 → Option (Handler σ)) (fuel : Nat)
    (ifaceIpBe ifaceBcastBe : UInt32) (utPort dataPort : UInt16) (dataFd : Int) (s : Server σ) :
    Option (Bool × Server σ) := do
  let capabilityBitmap ← deriveBitmap (serves env registered)
  let pingMaxOpcode ← contiguousTop (serves env registered) fuel 1 0
  (openSockets env dataFd utPort).run
    { s with ifaceIpBe, ifaceBcastBe, dataPort, capabilityBitmap, pingMaxOpcode }

/-- A turn of the server's loops, with the opcodes of the platform. -/
def turnWith (env : Env σ) (registered : UInt8 → Option (Handler σ)) : Input → UT σ Unit
  | .request datagram peer => utServerLoop env registered datagram peer
  | .datagram d => dataListenerLoop d
  | .acceptor sid => tcpAcceptorLoop env sid
  | .connector sid => tcpConnectorLoop env sid

def stepWith (env : Env σ) (registered : UInt8 → Option (Handler σ)) (process : Option (Server σ))
    (i : Input) : Option (Server σ) :=
  process.bind fun s => ((turnWith env registered i).run s).map Prod.snd

/-! ## The bitmap -/

theorem bits_and_ne_zero : ∀ i j : Fin 8,
    (1 <<< UInt8.ofNat i.1 : UInt8) &&& (1 <<< UInt8.ofNat j.1) ≠ 0 ↔ i = j := by decide

theorem capabilityBit_and_ne_zero (op op' : UInt8) :
    capabilityBit op &&& capabilityBit op' ≠ 0 ↔ op.toNat % 8 = op'.toNat % 8 := by
  have hof : ∀ op : UInt8, capabilityBit op = 1 <<< UInt8.ofNat (op.toNat % 8) := by
    intro op
    rw [capabilityBit]
    congr 1
    apply UInt8.toNat_inj.mp
    rw [UInt8.toNat_mod, UInt8.toNat_ofNat_of_lt' (by have := op.toNat_lt; simp [UInt8.size]; omega)]
    rfl
  have hlt : ∀ op : UInt8, op.toNat % 8 < 8 := fun op => Nat.mod_lt _ (by decide)
  rw [hof op, hof op', bits_and_ne_zero ⟨_, hlt op⟩ ⟨_, hlt op'⟩, Fin.mk.injEq]

/-- One turn of the loop, on a byte of the bitmap. -/
def setBit (bitmap : List UInt8) (op : UInt8) : List UInt8 :=
  bitmap.modify (op.toNat / 8) (· ||| capabilityBit op)

/-- The bit of an opcode is set in a bitmap. -/
def HasBit (bitmap : List UInt8) (op : UInt8) : Prop :=
  bitmap.getD (op.toNat / 8) 0 &&& capabilityBit op ≠ 0

@[simp] theorem length_setBit (bitmap : List UInt8) (op : UInt8) :
    (setBit bitmap op).length = bitmap.length := List.length_modify ..

theorem hasBit_setBit {bitmap : List UInt8} {op : UInt8} (h : op.toNat / 8 < bitmap.length) (op' : UInt8) :
    HasBit (setBit bitmap op) op' ↔ HasBit bitmap op' ∨ op' = op := by
  have heq : op' = op ↔ op'.toNat / 8 = op.toNat / 8 ∧ op'.toNat % 8 = op.toNat % 8 := by
    rw [← UInt8.toNat_inj]
    omega
  unfold HasBit setBit
  by_cases hbyte : op'.toNat / 8 = op.toNat / 8
  · have hdistrib : ∀ byte : UInt8, (byte ||| capabilityBit op) &&& capabilityBit op' =
        byte &&& capabilityBit op' ||| capabilityBit op &&& capabilityBit op' :=
      fun byte => UInt8.eq_of_toBitVec_eq BitVec.and_or_distrib_right
    rw [hbyte, List.getD_eq_getElem?_getD, List.getElem?_modify_eq, List.getElem?_eq_getElem h,
      List.getD_eq_getElem _ _ h]
    simp only [Option.map_eq_map, Option.map_some, Option.getD_some]
    rw [hdistrib, Ne, UInt8.or_eq_zero_iff, not_and_or, ← Ne, ← Ne, capabilityBit_and_ne_zero, heq]
    simp only [hbyte, true_and]
    rw [eq_comm]
  · rw [List.getD_eq_getElem?_getD, List.getElem?_modify_ne _ _ (Ne.symm hbyte), heq,
      ← List.getD_eq_getElem?_getD]
    simp [hbyte]

theorem hasBit_foldl {ops bitmap : List UInt8} (h : ∀ op ∈ ops, op.toNat / 8 < bitmap.length)
    (op' : UInt8) : HasBit (ops.foldl setBit bitmap) op' ↔ HasBit bitmap op' ∨ op' ∈ ops := by
  induction ops generalizing bitmap with
  | nil => simp
  | cons op ops ih =>
    have hrest : ∀ op' ∈ ops, op'.toNat / 8 < (setBit bitmap op).length := by
      intro op' hop'
      rw [length_setBit]
      exact h op' (List.mem_cons_of_mem _ hop')
    rw [List.foldl_cons, ih hrest, hasBit_setBit (h op List.mem_cons_self), List.mem_cons, or_assoc]

theorem length_foldl_setBit (ops bitmap : List UInt8) : (ops.foldl setBit bitmap).length = bitmap.length := by
  induction ops generalizing bitmap with
  | nil => rfl
  | cons op ops ih => rw [List.foldl_cons, ih, length_setBit]

theorem mem_opcodes {served : UInt8 → Bool} {op : UInt8} : op ∈ opcodes served ↔ served op = true := by
  unfold opcodes
  rw [List.mem_filter, and_iff_right_iff_imp]
  intro _
  exact List.mem_map.mpr ⟨op.toNat, List.mem_range.mpr op.toNat_lt, UInt8.ofNat_toNat⟩

theorem hasBit_replicate_zero (n : Nat) (op : UInt8) : ¬ HasBit (List.replicate n 0) op := by
  unfold HasBit
  by_cases hlt : op.toNat / 8 < n
  · rw [List.getD_replicate 0 hlt, UInt8.zero_and]
    simp
  · rw [List.getD_eq_default _ _ (by simpa using hlt), UInt8.zero_and]
    simp

/-- The bitmap is packed where every opcode of the table has its byte, and has the bits of the table. -/
theorem deriveBitmap_eq_some {served : UInt8 → Bool}
    (h : ∀ op, served op = true → op.toNat < 8 * kCapabilityBitmapBytes) :
    ∃ bitmap, deriveBitmap served = some bitmap ∧ bitmap.length = kCapabilityBitmapBytes ∧
      ∀ op, HasBit bitmap op ↔ served op = true := by
  have hbyte : ∀ op ∈ opcodes served, op.toNat / 8 < kCapabilityBitmapBytes := by
    intro op hop
    have hop := h op (mem_opcodes.mp hop)
    omega
  refine ⟨(opcodes served).foldl setBit (List.replicate kCapabilityBitmapBytes 0), ?_, ?_, ?_⟩
  · refine foldlM_eq_some (fun b => b.length = kCapabilityBitmapBytes) List.length_replicate ?_
    rintro op hop b hb
    exact ⟨orByte_eq (by rw [hb]; exact hbyte op hop) _, by rw [length_setBit, hb]⟩
  · rw [length_foldl_setBit, List.length_replicate]
  · intro op
    rw [hasBit_foldl (by simpa using hbyte), mem_opcodes, or_iff_right (hasBit_replicate_zero _ op)]

/-- An opcode past the bitmap is written outside it. -/
theorem deriveBitmap_eq_none {served : UInt8 → Bool} {op : UInt8} (hserved : served op = true)
    (hop : 8 * kCapabilityBitmapBytes ≤ op.toNat) : deriveBitmap served = none := by
  have hnone : ∀ (ops bitmap : List UInt8), op ∈ ops → bitmap.length = kCapabilityBitmapBytes →
      ops.foldlM (fun b op => orByte b (op.toNat / 8) (capabilityBit op)) bitmap = none := by
    intro ops
    induction ops with
    | nil => intro _ hmem; nomatch hmem
    | cons op' ops ih =>
      intro bitmap hmem hlen
      rw [List.foldlM_cons]
      cases hwrite : orByte bitmap (op'.toNat / 8) (capabilityBit op') with
      | none => rfl
      | some bitmap' =>
        obtain ⟨hlt, hlen'⟩ := orByte_some hwrite
        have hne : op ≠ op' := by
          rintro rfl
          omega
        exact ih bitmap' (List.mem_of_ne_of_mem hne hmem) (hlen'.trans hlen)
  exact hnone _ _ (mem_opcodes.mpr hserved) List.length_replicate

/-- What the client reads off the bitmap. -/
theorem capabilityBitSet_iff {bitmap : List UInt8} {op : UInt8} :
    capabilityBitSet bitmap bitmap.length op = true ↔ HasBit bitmap op := by
  unfold capabilityBitSet HasBit
  rw [Bool.and_eq_true, decide_eq_true_eq, bne_iff_ne, and_iff_right_iff_imp]
  intro hbit
  by_contra hlen
  rw [List.getD_eq_default _ _ (Nat.le_of_not_lt hlen), UInt8.zero_and] at hbit
  exact hbit rfl

/-! ## The contiguous top -/

/-- `k` is the largest with every opcode from 1 to `k` in the table. -/
def IsTop (served : UInt8 → Bool) (k : UInt8) : Prop :=
  IsGreatest { k | ∀ op, 1 ≤ op → op ≤ k → served op = true } k

/-- The scan ends below the first opcode that is not in the table. -/
theorem contiguousTop_eq_some {served : UInt8 → Bool} {missing : UInt8} (hmissing : served missing = false)
    {fuel : Nat} {op top : UInt8} (hop : op.toNat = top.toNat + 1) (hle : op ≤ missing)
    (hfuel : missing.toNat < op.toNat + fuel) (hbelow : ∀ o, 1 ≤ o → o ≤ top → served o = true) :
    ∃ k, contiguousTop served fuel op top = some k ∧ IsTop served k := by
  induction fuel generalizing op top with
  | zero =>
    rw [UInt8.le_iff_toNat_le] at hle
    omega
  | succ fuel ih =>
    rw [UInt8.le_iff_toNat_le] at hle
    by_cases hserved : served op = true
    · have hne : op ≠ missing := by
        rintro rfl
        rw [hserved] at hmissing
        nomatch hmissing
      have hlt : op.toNat < missing.toNat := lt_of_le_of_ne hle fun h => hne (UInt8.toNat_inj.mp h)
      have hsucc : (op + 1).toNat = op.toNat + 1 := by
        have hmax := missing.toNat_lt
        rw [UInt8.toNat_add, UInt8.toNat_one]
        omega
      rw [contiguousTop, if_pos hserved]
      refine ih hsucc (UInt8.le_iff_toNat_le.mpr (by omega)) (by omega) fun o hone ho => ?_
      rw [UInt8.le_iff_toNat_le] at ho
      by_cases hlast : o = op
      · rw [hlast]
        exact hserved
      · have : o.toNat ≠ op.toNat := fun h => hlast (UInt8.toNat_inj.mp h)
        exact hbelow o hone (UInt8.le_iff_toNat_le.mpr (by omega))
    · rw [contiguousTop, if_neg hserved]
      refine ⟨top, rfl, hbelow, fun k hk => ?_⟩
      by_contra hgt
      rw [UInt8.le_iff_toNat_le] at hgt
      refine hserved (hk op (UInt8.le_iff_toNat_le.mpr ?_) (UInt8.le_iff_toNat_le.mpr (by omega)))
      rw [UInt8.toNat_one]
      omega

/-! ## What the loops leave alone -/

variable {env : Env σ}

/-- What `start` derived. -/
def surface (s : Server σ) : List UInt8 × UInt8 := (s.capabilityBitmap, s.pingMaxOpcode)

/-- A reply of a handler. -/
def Handled (reply : Reply) : Prop := reply.1 ≠ kStatusUnknownOpcode

theorem frames_call {α : Type} (op : Op α) : Frames surface (fun _ => True) (call env op) := by
  rintro c s hs a t hrun
  obtain ⟨rfl, rfl⟩ := Prod.mk.inj (Option.some.inj hrun)
  exact ⟨trivial, hs⟩

theorem boundSocket_frames (addrBe : UInt32) (localPort : UInt16) :
    Frames surface (fun _ => True) (boundSocket env addrBe localPort) := by
  refine (frames_call _).seq fun fd => frames_ite (frames_pure trivial) ?_
  refine (frames_call _).seq fun _ => (frames_call _).seq fun _ => frames_ite (frames_pure trivial) ?_
  exact (frames_call _).seq fun _ => frames_pure trivial

theorem passiveSocket_frames (localPort : UInt16) :
    Frames surface (fun _ => True) (passiveSocket env localPort) := by
  refine (boundSocket_frames 0 localPort).seq fun made => ?_
  cases made with
  | none => exact frames_pure trivial
  | some fd =>
    refine (frames_call _).seq fun _ => frames_ite (frames_pure trivial) ?_
    exact (frames_call _).seq fun _ => frames_pure trivial

theorem emplaceSlot_frames (slot : TcpSlot) (fd : Int) :
    Frames surface (fun _ => True) (some <$> emplaceSlot slot fd : UT σ (Option UInt8)) := by
  rw [map_eq_pure_bind]
  refine Frames.seq (q := fun _ => True) ?_ fun _ => frames_pure trivial
  intro c s hs a t hrun
  unfold emplaceSlot at hrun
  simp only [StateT.run] at hrun
  split at hrun
  · cases hrun
  · obtain ⟨rfl, rfl⟩ := Prod.mk.inj (Option.some.inj hrun)
    exact ⟨trivial, hs⟩

theorem openTcpPassive_frames (localPort : UInt16) :
    Frames surface (fun _ => True) (openTcpPassive env localPort) := by
  refine (passiveSocket_frames localPort).seq fun made => ?_
  cases made with
  | none => exact frames_pure trivial
  | some fd => exact emplaceSlot_frames _ fd

theorem openTcpActive_frames (localPort : UInt16) (remoteIpBe : UInt32) (remotePort : UInt16) :
    Frames surface (fun _ => True) (openTcpActive env localPort remoteIpBe remotePort) := by
  have hsocket : Frames surface (fun _ => True) (activeSocket env localPort) :=
    frames_get_bind fun s => boundSocket_frames s.ifaceIpBe localPort
  refine hsocket.seq fun made => ?_
  cases made with
  | none => exact frames_pure trivial
  | some fd => exact emplaceSlot_frames _ fd

theorem acceptorTurn_frames (slot : TcpSlot) : Frames surface (fun _ => True) (acceptorTurn env slot) := by
  refine (frames_call _).seq fun sr => frames_ite (frames_pure trivial) (frames_ite (frames_pure trivial) ?_)
  exact (frames_call _).seq fun conn => frames_ite (frames_pure trivial) (frames_pure trivial)

theorem tcpAcceptorLoop_frames (sid : UInt8) : Frames surface (fun _ => True) (tcpAcceptorLoop env sid) := by
  refine frames_get_bind fun s => ?_
  cases s.tcpSlots[sid]? with
  | none => exact frames_pure trivial
  | some slot =>
    refine frames_ite ((acceptorTurn_frames slot).seq fun slot' => ?_) (frames_pure trivial)
    exact frames_modify fun _ => rfl

theorem tcpConnectorLoop_frames (sid : UInt8) :
    Frames surface (fun _ => True) (tcpConnectorLoop env sid) := by
  refine frames_get_bind fun s => ?_
  cases s.tcpSlots[sid]? with
  | none => exact frames_pure trivial
  | some slot =>
    refine frames_ite ((frames_call _).seq fun _ => ?_) (frames_pure trivial)
    exact frames_modify fun _ => rfl

theorem joinWorker_frames (slot : TcpSlot) : Frames surface (fun _ => True) (joinWorker env slot) := by
  refine frames_ite ((frames_call _).seq fun _ => ?_) (frames_pure trivial)
  exact frames_ite (acceptorTurn_frames slot) (frames_pure trivial)

theorem unblockConnector_frames (slot : TcpSlot) :
    Frames surface (fun _ => True) (unblockConnector env slot) :=
  frames_ite ((frames_call _).seq fun _ => frames_pure trivial) (frames_pure trivial)

theorem closeAccepted_frames (fd : Int) (abort : Bool) :
    Frames surface (fun _ => True) (closeAccepted env fd abort) :=
  frames_ite (frames_ite (frames_call _) (frames_call _)) (frames_pure trivial)

theorem closeListener_frames (fd : Int) : Frames surface (fun _ => True) (closeListener env fd) :=
  frames_ite (frames_call _) (frames_pure trivial)

theorem tearDownSlot_frames (sid : UInt8) (abort : Bool) :
    Frames surface (fun _ => True) (tearDownSlot env sid abort) := by
  refine frames_get_bind fun s => ?_
  cases s.tcpSlots[sid]? with
  | none => exact frames_pure trivial
  | some slot =>
    refine Frames.seq (frames_modify fun _ => rfl) fun _ => ?_
    refine (unblockConnector_frames slot).seq fun _ => (joinWorker_frames slot).seq fun slot' => ?_
    refine (closeAccepted_frames _ abort).seq fun _ => ?_
    exact (closeListener_frames _).seq fun _ => frames_pure trivial

theorem slotExists_frames (sid : UInt8) : Frames surface (fun _ => True) (slotExists sid : UT σ Bool) :=
  frames_get_bind fun _ => frames_pure trivial

theorem slotConnFd_frames (sid : UInt8) : Frames surface (fun _ => True) (slotConnFd sid : UT σ Int) :=
  frames_get_bind fun _ => frames_pure trivial

theorem triggerSendUdp_frames (srcPort : UInt16) (dstIpBe : UInt32) (dstPort : UInt16)
    (payload : List UInt8) (srcIpOverrideBe : UInt32) :
    Frames surface (fun _ => True) (triggerSendUdp env srcPort dstIpBe dstPort payload srcIpOverrideBe) := by
  refine (frames_call _).seq fun fd => frames_ite (frames_pure trivial) ?_
  refine (frames_call _).seq fun _ => (frames_call _).seq fun _ => frames_get_bind fun s => ?_
  refine (frames_call _).seq fun _ => frames_ite ((frames_call _).seq fun rc => ?_) ?_
  · exact (frames_call _).seq fun _ => frames_pure trivial
  · exact (frames_call _).seq fun _ => frames_pure trivial

theorem bindUdpReceivePorts_frames (count : Nat) :
    Frames surface (fun _ => True) (bindUdpReceivePorts env count) := by
  induction count with
  | zero => exact frames_pure trivial
  | succ count ih =>
    refine (frames_call _).seq fun fd => frames_ite (frames_pure trivial) ?_
    refine (frames_call _).seq fun _ => frames_ite ?_ ((frames_call _).seq fun _ => frames_pure trivial)
    refine Frames.seq (frames_modify fun _ => rfl) fun _ => ?_
    exact ih.seq fun _ => frames_pure trivial

theorem createUdpReceivePorts_frames (count : UInt8) :
    Frames surface (fun _ => True) (createUdpReceivePorts env count) :=
  (bindUdpReceivePorts_frames count.toNat).seq fun _ => frames_get_bind fun _ => frames_pure trivial

theorem sendAll_frames (fd : Int) (bytes : List UInt8) :
    Frames surface (fun _ => True) (sendAll env fd bytes) := by
  fun_induction sendAll env fd bytes with
  | case1 => exact frames_pure trivial
  | case2 byte bytes ih =>
    refine (frames_call _).seq fun rc => ?_
    split
    · next hpos => exact ih rc hpos
    · exact frames_pure trivial

theorem receiveUntil_frames (fd deadline : Int) (want : Nat) :
    Frames surface (fun _ => True) (receiveUntil env fd deadline want) := by
  induction want using Nat.strong_induction_on with
  | _ want ih =>
    rw [receiveUntil]
    refine frames_ite (frames_pure trivial) ((frames_call _).seq fun now => ?_)
    refine frames_ite (frames_pure trivial) ((frames_call _).seq fun _ => ?_)
    refine (frames_call _).seq fun got => ?_
    obtain ⟨bytes, stop⟩ := got
    dsimp only
    split
    · next hpos => exact (ih _ (by omega)).seq fun _ => frames_pure trivial
    · exact frames_pure trivial

theorem dataListenerLoop_frames (d : UdpDatagram) :
    Frames surface (fun _ => True) (dataListenerLoop d : UT σ Unit) := by
  refine frames_modify fun s => ?_
  split_ifs <;> rfl

theorem openSockets_frames (dataFd : Int) (utPort : UInt16) :
    Frames surface (fun _ => True) (openSockets env dataFd utPort) := by
  refine frames_ite (frames_pure trivial) ((frames_call _).seq fun utFd => ?_)
  refine Frames.seq (frames_modify fun _ => rfl) fun _ => frames_ite ?_ ?_
  · exact (frames_call _).seq fun _ => frames_pure trivial
  · refine (frames_call _).seq fun _ => (frames_call _).seq fun _ => (frames_call _).seq fun _ => ?_
    refine frames_ite (frames_pure trivial) ((frames_call _).seq fun _ => (frames_call _).seq fun _ => ?_)
    exact Frames.seq (frames_modify fun _ => rfl) fun _ => frames_pure trivial

theorem openSockets_answers (dataFd : Int) (utPort : UInt16) :
    Answers (openSockets env dataFd utPort) := by
  refine always_ite (answers_pure _) (always_bind (answers_call env _) fun utFd => ?_)
  refine always_bind (answers_modify _) fun _ => always_ite ?_ ?_
  · exact always_bind (answers_call env _) fun _ => answers_pure _
  · refine always_bind (answers_call env _) fun _ => always_bind (answers_call env _) fun _ => ?_
    refine always_bind (answers_call env _) fun bound => always_ite (answers_pure _) ?_
    refine always_bind (answers_call env _) fun _ => always_bind (answers_call env _) fun _ => ?_
    exact always_bind (answers_modify _) fun _ => answers_pure _

/-! ## The requests -/

theorem frames_reply {status : UInt8} (h : status ≠ kStatusUnknownOpcode) (body : List UInt8) :
    Frames surface Handled (pure (status, body) : UT σ Reply) := frames_pure h

theorem handleGetReceivedUdp_frames (p : List UInt8) :
    Frames surface Handled (handleGetReceivedUdp p : UT σ Reply) := by
  have hlookup : ∀ port addr, Frames surface (fun _ => True)
      (lookupReceipt port addr : UT σ (Option ReceiveRecord)) :=
    fun _ _ => frames_get_bind fun _ => frames_pure trivial
  refine frames_ite (frames_reply (by decide) _) ((hlookup _ _).seq fun receipt => ?_)
  cases receipt <;> exact frames_reply (by decide) _

theorem handleTriggerSendUdp_frames (p : List UInt8) :
    Frames surface Handled (handleTriggerSendUdp env p) := by
  refine frames_ite (frames_reply (by decide) _) (frames_ite ?_ (frames_reply (by decide) _))
  refine (triggerSendUdp_frames _ _ _ _ _).seq fun ok => ?_
  cases ok <;> exact frames_reply (by decide) _

theorem handleOpenTcpSocket_frames (p : List UInt8) :
    Frames surface Handled (handleOpenTcpSocket env p) := by
  refine frames_ite (frames_reply (by decide) _) (frames_ite ?_ (frames_ite (frames_ite ?_ ?_) ?_))
  · refine (openTcpPassive_frames _).seq fun sid => ?_
    cases sid <;> exact frames_reply (by decide) _
  · exact frames_reply (by decide) _
  · refine (openTcpActive_frames _ _ _).seq fun sid => ?_
    cases sid <;> exact frames_reply (by decide) _
  · exact frames_reply (by decide) _

theorem tearDown_frames (abort : Bool) (p : List UInt8) : Frames surface Handled (tearDown env abort p) := by
  refine frames_ite (frames_reply (by decide) _) ((tearDownSlot_frames _ abort).seq fun ok => ?_)
  cases ok <;> exact frames_reply (by decide) _

theorem handleQueryTcpEstablished_frames (p : List UInt8) :
    Frames surface Handled (handleQueryTcpEstablished env p) := by
  refine frames_ite (frames_reply (by decide) _) ((slotExists_frames _).seq fun _ =>
    frames_ite ?_ (frames_reply (by decide) _))
  refine (slotConnFd_frames _).seq fun fd => frames_ite ?_ (frames_reply (by decide) _)
  exact (frames_call _).seq fun _ => frames_reply (by decide) _

theorem sendOn_frames (sid : UInt8) (bytes : List UInt8) : Frames surface Handled (sendOn env sid bytes) := by
  refine (slotExists_frames sid).seq fun _ => frames_ite ?_ (frames_reply (by decide) _)
  refine (slotConnFd_frames sid).seq fun fd => frames_ite ?_ (frames_reply (by decide) _)
  refine (sendAll_frames fd bytes).seq fun ok => ?_
  cases ok <;> exact frames_reply (by decide) _

theorem handleReceiveTcpData_frames (p : List UInt8) :
    Frames surface Handled (handleReceiveTcpData env p) := by
  refine frames_ite (frames_reply (by decide) _) ((slotExists_frames _).seq fun _ =>
    frames_ite ?_ (frames_reply (by decide) _))
  refine (slotConnFd_frames _).seq fun fd => frames_ite ?_ (frames_reply (by decide) _)
  refine (frames_call _).seq fun now => ?_
  exact (receiveUntil_frames _ _ _).seq fun _ => frames_reply (by decide) _

theorem handleShutdownTcpSocketWr_frames (p : List UInt8) :
    Frames surface Handled (handleShutdownTcpSocketWr env p) := by
  refine frames_ite (frames_reply (by decide) _) ((slotConnFd_frames _).seq fun fd =>
    frames_ite ?_ (frames_reply (by decide) _))
  refine (frames_call _).seq fun ok => ?_
  cases ok <;> exact frames_reply (by decide) _

theorem handleReceiveTcpDataOob_frames (p : List UInt8) :
    Frames surface Handled (handleReceiveTcpDataOob env p) := by
  refine frames_ite (frames_reply (by decide) _) ((slotExists_frames _).seq fun _ =>
    frames_ite ?_ (frames_reply (by decide) _))
  refine (slotConnFd_frames _).seq fun fd => frames_ite ?_ (frames_reply (by decide) _)
  exact (frames_call _).seq fun _ => frames_reply (by decide) _

theorem handleQueryTcpInfo_frames (p : List UInt8) :
    Frames surface Handled (handleQueryTcpInfo env p) := by
  refine frames_ite (frames_reply (by decide) _) ((slotExists_frames _).seq fun _ =>
    frames_ite ?_ (frames_reply (by decide) _))
  refine (slotConnFd_frames _).seq fun fd => frames_ite (frames_reply (by decide) _) ?_
  refine (frames_call _).seq fun info => ?_
  cases info <;> exact frames_reply (by decide) _

/-- **Every handler of the core** leaves the surface alone and never answers like an opcode that is not
in the table. -/
theorem builtin_frames {opcode : UInt8} (p : List UInt8) :
    ∀ handler ∈ builtin env opcode, Frames surface Handled (handler p) := by
  unfold builtin
  refine forall_mem_row (fun _ => handleGetReceivedUdp_frames p) ?_
  refine forall_mem_row (fun _ => handleTriggerSendUdp_frames p) ?_
  refine forall_mem_row (fun _ => handleOpenTcpSocket_frames p) ?_
  refine forall_mem_row (fun _ => tearDown_frames false p) ?_
  refine forall_mem_row (fun _ => handleQueryTcpEstablished_frames p) ?_
  refine forall_mem_row (fun _ => ?_) ?_
  · exact frames_ite (frames_reply (by decide) _) (frames_ite (frames_reply (by decide) _)
      (sendOn_frames _ _))
  refine forall_mem_row (fun _ => handleReceiveTcpData_frames p) ?_
  refine forall_mem_row (fun _ => handleShutdownTcpSocketWr_frames p) ?_
  refine forall_mem_row (fun _ => tearDown_frames true p) ?_
  refine forall_mem_row (fun _ => frames_ite (frames_reply (by decide) _) (sendOn_frames _ _)) ?_
  refine forall_mem_row (fun _ => handleReceiveTcpDataOob_frames p) ?_
  refine forall_mem_row (fun _ => handleQueryTcpInfo_frames p) ?_
  refine forall_mem_row (fun _ => ?_) ?_
  · exact frames_ite (frames_reply (by decide) _) ((createUdpReceivePorts_frames _).seq fun _ =>
      frames_reply (by decide) _)
  refine forall_mem_row (fun _ => frames_get_bind fun _ => frames_reply (by decide) _) ?_
  refine forall_mem_row (fun _ => frames_get_bind fun _ => frames_reply (by decide) _) ?_
  intro handler hfound
  nomatch hfound

/-! ## The table -/

/-- A registration stands for its opcode, whatever was registered before. -/
theorem registerAll_concat (registrations : List (UInt8 × Handler σ)) (r : UInt8 × Handler σ) (op : UInt8) :
    registerAll (registrations ++ [r]) op =
      if op = r.1 then some r.2 else registerAll registrations op := by
  rw [registerAll, List.foldl_append]
  rfl

theorem registerAll_append (registrations later : List (UInt8 × Handler σ)) (op : UInt8) :
    registerAll (registrations ++ later) op = (registerAll later op).or (registerAll registrations op) := by
  induction later using List.reverseRecOn with
  | nil =>
    rw [List.append_nil]
    rfl
  | append_singleton later r ih =>
    rw [← List.append_assoc, registerAll_concat, registerAll_concat, ih]
    split
    · rfl
    · rfl

theorem registerAll_eq_some {registrations : List (UInt8 × Handler σ)} {op : UInt8} {handler : Handler σ}
    (h : registerAll registrations op = some handler) : (op, handler) ∈ registrations := by
  induction registrations using List.reverseRecOn with
  | nil => nomatch h
  | append_singleton registrations r ih =>
    rw [registerAll_concat] at h
    split at h
    · next heq =>
      rw [heq, ← Option.some.inj h]
      exact List.mem_append_right _ (List.mem_singleton_self _)
    · exact List.mem_append_left _ (ih h)

theorem registerAll_isSome {registrations : List (UInt8 × Handler σ)} {op : UInt8} :
    (registerAll registrations op).isSome = true ↔ ∃ r ∈ registrations, r.1 = op := by
  induction registrations using List.reverseRecOn with
  | nil => simp [registerAll]
  | append_singleton registrations r ih =>
    rw [registerAll_concat]
    by_cases heq : op = r.1
    · rw [if_pos heq]
      simp [heq]
    · rw [if_neg heq, ih]
      simp [Ne.symm heq]

/-- Where no opcode is registered twice, the order of the registrations does not matter. -/
theorem registerAll_of_nodup {registrations : List (UInt8 × Handler σ)}
    (hnodup : (registrations.map (·.1)).Nodup) :
    registerAll registrations =
      registrations.foldr (fun r registered => registerOpcode registered r.1 r.2) fun _ => none := by
  induction registrations with
  | nil => rfl
  | cons r registrations ih =>
    obtain ⟨hfresh, hnodup⟩ := List.nodup_cons.mp hnodup
    rw [List.foldr_cons, ← ih hnodup]
    funext op
    rw [← List.singleton_append, registerAll_append, registerOpcode]
    by_cases heq : op = r.1
    · have hnone : registerAll registrations op = none := by
        refine Option.not_isSome_iff_eq_none.mp fun hsome => hfresh ?_
        obtain ⟨r', hr', hop⟩ := registerAll_isSome.mp hsome
        exact List.mem_map.mpr ⟨r', hr', hop.trans heq⟩
      rw [if_pos heq, hnone, Option.none_or]
      exact if_pos heq
    · rw [if_neg heq]
      show Option.or _ (if op = r.1 then some r.2 else none) = _
      rw [if_neg heq, Option.or_none]

/-- The opcodes of the core have a byte in the bitmap. -/
theorem builtin_lt {op : UInt8} (h : (builtin env op).isSome = true) :
    op.toNat < 8 * kCapabilityBitmapBytes := by
  have hrows : ∀ handler ∈ builtin env op, op.toNat < 8 * kCapabilityBitmapBytes := by
    unfold builtin
    repeat' refine forall_mem_row (by rintro rfl; decide) ?_
    intro handler hfound
    nomatch hfound
  obtain ⟨handler, hhandler⟩ := Option.isSome_iff_exists.mp h
  exact hrows handler hhandler

theorem serves_iff {registrations : List (UInt8 × Handler σ)} {op : UInt8} :
    serves env (registerAll registrations) op = true ↔
      (∃ r ∈ registrations, r.1 = op) ∨ (builtin env op).isSome = true := by
  rw [serves, Option.isSome_or, Bool.or_eq_true, registerAll_isSome]

/-! ## Runs -/

section Runs

variable {registrations : List (UInt8 × Handler σ)}

/-- The handlers of the platform: they have no access to what `start` derived, and the status for an
opcode that is not in the table is not theirs to give. -/
def Behaved (registrations : List (UInt8 × Handler σ)) : Prop :=
  ∀ r ∈ registrations, ∀ p, Frames surface Handled (r.2 p)

theorem dispatch_frames (hbehaved : Behaved registrations) (op : UInt8) (p : List UInt8) :
    Frames surface (fun reply => reply.1 = kStatusUnknownOpcode ↔
      serves env (registerAll registrations) op = false) (dispatch env (registerAll registrations) op p) := by
  unfold dispatch
  cases hfound : (registerAll registrations op).or (builtin env op) with
  | none =>
    refine frames_pure ?_
    rw [serves, hfound]
    simp
  | some handler =>
    have hhandler : Frames surface Handled (handler p) := by
      rcases Option.or_eq_some_iff.mp hfound with hreg | ⟨-, hcore⟩
      · exact hbehaved _ (registerAll_eq_some hreg) p
      · exact builtin_frames p handler hcore
    intro c s hs reply t hrun
    obtain ⟨hanswer, hkept⟩ := hhandler c s hs reply t hrun
    refine ⟨?_, hkept⟩
    rw [serves, hfound]
    simpa [Handled] using hanswer

/-- **One turn** of a loop leaves what `start` derived alone. -/
theorem turnWith_surface (hbehaved : Behaved registrations) (i : Input) :
    Frames surface (fun _ => True) (turnWith env (registerAll registrations) i) := by
  cases i with
  | request datagram peer =>
    refine frames_ite (frames_pure trivial) (frames_ite (frames_pure trivial) ?_)
    refine (dispatch_frames hbehaved _ _).seq fun reply => frames_get_bind fun s => ?_
    exact (frames_call _).seq fun _ => frames_pure trivial
  | datagram d => exact dataListenerLoop_frames d
  | acceptor sid => exact tcpAcceptorLoop_frames sid
  | connector sid => exact tcpConnectorLoop_frames sid

theorem foldl_stepWith_surface (hbehaved : Behaved registrations) {s t : Server σ} {inputs : List Input}
    (hrun : inputs.foldl (stepWith env (registerAll registrations)) (some s) = some t) :
    surface t = surface s := by
  induction inputs using List.reverseRecOn generalizing t with
  | nil =>
    obtain rfl := Option.some.inj hrun
    rfl
  | append_singleton inputs i ih =>
    rw [List.foldl_append, List.foldl_cons, List.foldl_nil] at hrun
    obtain ⟨before, hbefore, hturn⟩ := Option.bind_eq_some_iff.mp hrun
    obtain ⟨⟨a, t'⟩, hlast, rfl⟩ := Option.map_eq_some_iff.mp hturn
    exact ((turnWith_surface hbehaved i).obs_eq hlast).trans (ih hbefore)

/-- What a client reads in the reply to QueryCapabilities. -/
def advertised (s : Server σ) (op : UInt8) : Bool :=
  ((handleQueryCapabilities []).run s).any fun (reply, _) =>
    capabilityBitSet (reply.2.drop 1) (reply.2.getD 0 0).toNat op

/-- Advertised is served: a request is refused for its opcode exactly where the bitmap does not have it,
and Ping answers the top of the contiguous block. -/
structure Advertises (env : Env σ) (registered : UInt8 → Option (Handler σ)) (s : Server σ) : Prop where
  bitmap : ∀ op p, op &&& kResponseBit = 0 →
    ((∃ body t, (dispatch env registered op p).run s = some ((kStatusUnknownOpcode, body), t)) ↔
      advertised s op = false)
  ping : ∀ p, ∃ k t, (handlePing p).run s = some ((kStatusOk, [k]), t) ∧ IsTop (serves env registered) k

/-- `start` comes to an end, and advertised is served however the server is used from then on. -/
def StartAdvertises (env : Env σ) (registered : UInt8 → Option (Handler σ))
    (ifaceIpBe ifaceBcastBe : UInt32) (utPort dataPort : UInt16) (dataFd : Int) (s : Server σ) : Prop :=
  ∃ fuel launched,
    start env registered fuel ifaceIpBe ifaceBcastBe utPort dataPort dataFd s = some launched ∧
      ∀ (inputs : List Input) (reached : Server σ),
        inputs.foldl (stepWith env registered) (some launched.2) = some reached →
          Advertises env registered reached

theorem advertised_eq {s : Server σ} (hlen : s.capabilityBitmap.length = kCapabilityBitmapBytes)
    (op : UInt8) : advertised s op = capabilityBitSet s.capabilityBitmap s.capabilityBitmap.length op := by
  change capabilityBitSet s.capabilityBitmap (UInt8.ofNat s.capabilityBitmap.length).toNat op = _
  rw [hlen]
  rfl

/-- What the bitmap and the top have to be. -/
theorem advertises_of_surface (hbehaved : Behaved registrations) {s : Server σ} {bitmap : List UInt8}
    {top : UInt8} (hs : surface s = (bitmap, top)) (hlen : bitmap.length = kCapabilityBitmapBytes)
    (hbits : ∀ op, HasBit bitmap op ↔ serves env (registerAll registrations) op = true)
    (htop : IsTop (serves env (registerAll registrations)) top) :
    Advertises env (registerAll registrations) s := by
  obtain ⟨rfl, rfl⟩ := Prod.mk.inj hs
  refine ⟨fun op p _ => ?_, fun p => ⟨s.pingMaxOpcode, s, rfl, htop⟩⟩
  have hunserved : advertised s op = false ↔ serves env (registerAll registrations) op = false := by
    rw [advertised_eq hlen, Bool.eq_false_iff, Bool.eq_false_iff, Ne, Ne, capabilityBitSet_iff, hbits]
  rw [hunserved]
  constructor
  · rintro ⟨body, t, hrun⟩
    exact ((dispatch_frames hbehaved op p).answer hrun).mp rfl
  · intro hserves
    rw [serves, Option.isSome_eq_false_iff, Option.isNone_iff_eq_none] at hserves
    refine ⟨[], s, ?_⟩
    rw [dispatch, hserves]
    rfl

/-- Where every opcode has its byte, the two derivations end and agree with the table. -/
theorem derives {served : UInt8 → Bool}
    (hserved : ∀ op, served op = true → op.toNat < 8 * kCapabilityBitmapBytes) :
    ∃ bitmap top, deriveBitmap served = some bitmap ∧ contiguousTop served 0x20 1 0 = some top ∧
      bitmap.length = kCapabilityBitmapBytes ∧ (∀ op, HasBit bitmap op ↔ served op = true) ∧
      IsTop served top := by
  have hmissing : served 0x20 = false := Bool.eq_false_iff.mpr fun h => absurd (hserved 0x20 h) (by decide)
  obtain ⟨bitmap, hbitmap, hlen, hbits⟩ := deriveBitmap_eq_some hserved
  have hnone : ∀ o : UInt8, 1 ≤ o → o ≤ 0 → served o = true := by
    intro o hone hzero
    rw [UInt8.le_iff_toNat_le, UInt8.toNat_one] at hone
    rw [UInt8.le_iff_toNat_le, UInt8.toNat_zero] at hzero
    omega
  have htop : ∃ k, contiguousTop served 0x20 1 0 = some k ∧ IsTop served k :=
    contiguousTop_eq_some hmissing rfl (by decide) (by decide) hnone
  obtain ⟨top, htop, hgreatest⟩ := htop
  exact ⟨bitmap, top, hbitmap, htop, hlen, hbits, hgreatest⟩

/-- A registration past the bitmap is written outside it. -/
theorem start_eq_none {r : UInt8 × Handler σ} (hr : r ∈ registrations)
    (hpast : 8 * kCapabilityBitmapBytes ≤ r.1.toNat) (fuel : Nat) (ifaceIpBe ifaceBcastBe : UInt32)
    (utPort dataPort : UInt16) (dataFd : Int) (s : Server σ) :
    start env (registerAll registrations) fuel ifaceIpBe ifaceBcastBe utPort dataPort dataFd s = none := by
  have hserved : serves env (registerAll registrations) r.1 = true := serves_iff.mpr (.inl ⟨r, hr, rfl⟩)
  rw [start, deriveBitmap_eq_none hserved hpast]
  rfl

/-- Where every opcode has its byte, advertised is served. -/
theorem startAdvertises_of_fits (hbehaved : Behaved registrations)
    (hfits : ∀ r ∈ registrations, r.1.toNat < 8 * kCapabilityBitmapBytes) (ifaceIpBe ifaceBcastBe : UInt32)
    (utPort dataPort : UInt16) (dataFd : Int) (s : Server σ) :
    StartAdvertises env (registerAll registrations) ifaceIpBe ifaceBcastBe utPort dataPort dataFd s := by
  have hserved : ∀ op, serves env (registerAll registrations) op = true →
      op.toNat < 8 * kCapabilityBitmapBytes := by
    intro op hop
    obtain ⟨r, hr, rfl⟩ | hcore := serves_iff.mp hop
    · exact hfits r hr
    · exact builtin_lt hcore
  obtain ⟨bitmap, top, hbitmap, htop, hlen, hbits, hgreatest⟩ := derives hserved
  have hanswers : Answers (openSockets env dataFd utPort) := openSockets_answers dataFd utPort
  obtain ⟨opened, t, hopened, -⟩ := hanswers { s with
    ifaceIpBe, ifaceBcastBe, dataPort, capabilityBitmap := bitmap, pingMaxOpcode := top } trivial
  have hstart : start env (registerAll registrations) 0x20 ifaceIpBe ifaceBcastBe utPort dataPort dataFd s =
      some (opened, t) := by
    rw [start, hbitmap, Option.bind_eq_bind, Option.bind_some, htop]
    exact hopened
  refine ⟨0x20, _, hstart, fun inputs reached hrun => ?_⟩
  refine advertises_of_surface hbehaved ?_ hlen hbits hgreatest
  rw [foldl_stepWith_surface hbehaved hrun, (openSockets_frames dataFd utPort).obs_eq hopened]
  rfl

/-- **Advertised is served**, in every state of every run, exactly where every opcode that was registered
has a byte in the bitmap. -/
theorem advertises_iff (hbehaved : Behaved registrations) (ifaceIpBe ifaceBcastBe : UInt32)
    (utPort dataPort : UInt16) (dataFd : Int) (s : Server σ) :
    StartAdvertises env (registerAll registrations) ifaceIpBe ifaceBcastBe utPort dataPort dataFd s ↔
      ∀ r ∈ registrations, r.1.toNat < 8 * kCapabilityBitmapBytes := by
  constructor
  · rintro ⟨fuel, launched, hstart, -⟩ r hr
    by_contra hpast
    rw [start_eq_none hr (Nat.le_of_not_lt hpast)] at hstart
    nomatch hstart
  · intro hfits
    exact startAdvertises_of_fits hbehaved hfits ifaceIpBe ifaceBcastBe utPort dataPort dataFd s

end Runs

/-! ## The platforms -/

section Platforms

variable (ext : ExtEnv σ)

/-- What a platform registers, in order. -/
def Platform.registrations : Platform → List (UInt8 × Handler σ)
  | .posix ifname clientMacs =>
    [(opStartLLAutoconf, handleStartLLAutoconf ext), (opQueryLLAddress, handleQueryLLAddress ext),
      (opAbortLLAutoconf, handleAbortLLAutoconf ext),
      (opStartLLAutoconfBuggy, handleStartLLAutoconfBuggy ext),
      (opStartDhcpClient, handleStartDhcpClient ext clientMacs),
      (opQueryDhcpLease, handleQueryDhcpLease ext clientMacs),
      (opAbortDhcpClient, handleAbortDhcpClient ext clientMacs),
      (opConditionArpCache, handleConditionArpCachePosix ext ifname),
      (opSetEtsFlavor, handleSetEtsFlavor ext)]
  | .lwip ifname =>
    [(opConditionArpCache, handleConditionArpCacheLwip ext ifname),
      (opSetEgressFlavor, handleSetEgressFlavor ext), (opSetIngressFlavor, handleSetIngressFlavor ext),
      (opSetAppFlavor, handleSetAppFlavor)]

theorem registerAll_registrations (platform : Platform) :
    registerAll (platform.registrations ext) = platform.registered ext := by
  cases platform with
  | posix ifname clientMacs =>
    refine registerAll_of_nodup ?_
    simp only [Platform.registrations, List.map_cons, List.map_nil]
    decide
  | lwip ifname =>
    refine registerAll_of_nodup ?_
    simp only [Platform.registrations, List.map_cons, List.map_nil]
    decide

variable {ext}

theorem frames_callExt {α : Type} (op : ExtOp α) : Frames surface (fun _ => True) (callExt ext op) := by
  rintro c s hs a t hrun
  obtain ⟨rfl, rfl⟩ := Prod.mk.inj (Option.some.inj hrun)
  exact ⟨trivial, hs⟩

/-- A call of the platform that is acknowledged. -/
theorem acknowledged_frames {α : Type} {m : UT σ α} (hm : Frames surface (fun _ => True) m)
    (body : α → List UInt8) : Frames surface Handled (do return (kStatusOk, body (← m))) :=
  hm.seq fun a => frames_reply (by decide) (body a)

theorem opStatusReply_handled (op : OpStatus) : Handled (opStatusReply op) := by
  unfold Handled
  cases op <;> decide

theorem applyArpStaticEntry_frames (ifname : String) (p : List UInt8) :
    Frames surface (fun reply => ∀ r ∈ reply, Handled r) (applyArpStaticEntry ext ifname p) := by
  have hmalformed : ∀ r ∈ some ((kStatusMalformed, []) : Reply), Handled r := by
    rintro r ⟨⟩
    unfold Handled
    decide
  have hstatus : ∀ op, ∀ r ∈ some (opStatusReply op), Handled r := by
    rintro op r ⟨⟩
    exact opStatusReply_handled op
  refine frames_ite (frames_pure (by simp)) (frames_ite ?_ (frames_ite ?_ (frames_pure (by simp))))
  · exact frames_ite (frames_pure hmalformed) ((frames_callExt _).seq fun op => frames_pure (hstatus op))
  · exact frames_ite (frames_pure hmalformed) ((frames_callExt _).seq fun op => frames_pure (hstatus op))

theorem abortDhcpClients_frames (iface : Nat) (macs : List (List UInt8)) :
    Frames surface (fun _ => True) (abortDhcpClients ext iface macs) := by
  induction macs generalizing iface with
  | nil => exact frames_pure trivial
  | cons mac macs ih => exact (frames_callExt _).seq fun _ => ih (iface + 1)

theorem ageArpTable_frames (seconds : Nat) : Frames surface (fun _ => True) (ageArpTable ext seconds) := by
  induction seconds with
  | zero => exact frames_pure trivial
  | succ seconds ih => exact (frames_callExt _).seq fun _ => ih

theorem handleSetFlavor_frames (max : UInt8) {arm : UInt8 → UT σ Unit}
    (harm : ∀ flavor, Frames surface (fun _ => True) (arm flavor)) (p : List UInt8) :
    Frames surface Handled (handleSetFlavor max arm p) :=
  frames_ite (frames_reply (by decide) _) ((harm _).seq fun _ => frames_reply (by decide) _)

theorem handleConditionArpCacheLwip_frames (ifname : String) (p : List UInt8) :
    Frames surface Handled (handleConditionArpCacheLwip ext ifname p) := by
  refine (applyArpStaticEntry_frames ifname p).bind fun reply hreply => ?_
  cases reply with
  | some reply => exact frames_pure (hreply reply rfl)
  | none =>
    refine frames_ite (frames_reply (by decide) _) (frames_ite ?_ (frames_ite ?_ ?_))
    · exact (frames_callExt _).seq fun _ => frames_reply (by decide) _
    · exact (ageArpTable_frames _).seq fun _ => frames_reply (by decide) _
    · exact frames_reply (by decide) _

theorem handleConditionArpCachePosix_frames (ifname : String) (p : List UInt8) :
    Frames surface Handled (handleConditionArpCachePosix ext ifname p) := by
  refine (applyArpStaticEntry_frames ifname p).bind fun reply hreply => ?_
  cases reply with
  | some reply => exact frames_pure (hreply reply rfl)
  | none => exact frames_reply (by decide) _

/-- **The handlers of both platforms are behaved.** -/
theorem behaved_registrations (platform : Platform) : Behaved (platform.registrations ext) := by
  cases platform with
  | posix ifname clientMacs =>
    intro r hr p
    simp only [Platform.registrations, List.mem_cons, List.not_mem_nil, or_false] at hr
    rcases hr with rfl | rfl | rfl | rfl | rfl | rfl | rfl | rfl | rfl
    · exact frames_ite (frames_reply (by decide) _) (acknowledged_frames (frames_callExt _) _)
    · exact acknowledged_frames (frames_callExt _) _
    · exact acknowledged_frames (frames_callExt _) _
    · exact frames_ite (frames_reply (by decide) _) (acknowledged_frames (frames_callExt _) _)
    · exact frames_ite (frames_reply (by decide) _) (frames_ite (frames_reply (by decide) _)
        (acknowledged_frames (frames_callExt _) _))
    · exact frames_ite (frames_reply (by decide) _) (acknowledged_frames (frames_callExt _) _)
    · exact acknowledged_frames (abortDhcpClients_frames 0 clientMacs) _
    · exact handleConditionArpCachePosix_frames ifname p
    · exact handleSetFlavor_frames _ (fun flavor => frames_callExt _) p
  | lwip ifname =>
    intro r hr p
    simp only [Platform.registrations, List.mem_cons, List.not_mem_nil, or_false] at hr
    rcases hr with rfl | rfl | rfl | rfl
    · exact handleConditionArpCacheLwip_frames ifname p
    · exact handleSetFlavor_frames _ (fun flavor => frames_callExt _) p
    · exact handleSetFlavor_frames _ (fun flavor => frames_callExt _) p
    · have harm : ∀ flavor, Frames surface (fun _ => True) (setAppFaultFlavor flavor : UT σ Unit) :=
        fun _ => frames_modify fun _ => rfl
      exact handleSetFlavor_frames _ harm p

/-- Both platforms advertise what they serve. -/
theorem platform_advertises (platform : Platform) (ifaceIpBe ifaceBcastBe : UInt32)
    (utPort dataPort : UInt16) (dataFd : Int) (s : Server σ) :
    StartAdvertises env (platform.registered ext) ifaceIpBe ifaceBcastBe utPort dataPort dataFd s := by
  rw [← registerAll_registrations]
  refine startAdvertises_of_fits (behaved_registrations platform) ?_ _ _ _ _ _ s
  cases platform <;> simp [Platform.registrations] <;> decide

end Platforms

/-- A handler that does nothing. -/
def acknowledge : Handler Nat := fun _ => return (kStatusOk, [])

theorem behaved_acknowledge (op : UInt8) : Behaved [(op, acknowledge)] := by
  intro r hr p
  rw [List.mem_singleton.mp hr]
  exact frames_reply (by decide) _

/-- With 0x0C registered, the block from 1 to 0x0C is contiguous. -/
theorem advertises_startLLAutoconf :
    StartAdvertises countingEnv (registerAll [(opStartLLAutoconf, acknowledge)]) 0 0 30600 13400 5 started ∧
      contiguousTop (serves countingEnv (registerAll [(opStartLLAutoconf, acknowledge)])) 0x20 1 0 =
        some opStartLLAutoconf :=
  ⟨(advertises_iff (behaved_acknowledge _) 0 0 30600 13400 5 started).mpr (by decide), by decide +kernel⟩

/-- The first opcode past the bitmap is written outside it. -/
theorem not_advertises_past : Behaved [(0x20, acknowledge)] ∧ (0x20 : UInt8).toNat < 0x80 ∧
    ¬ StartAdvertises countingEnv (registerAll [(0x20, acknowledge)]) 0 0 30600 13400 5 started := by
  refine ⟨behaved_acknowledge _, by decide, ?_⟩
  rintro ⟨fuel, launched, hstart, -⟩
  rw [start_eq_none (List.mem_singleton_self _) (by decide)] at hstart
  nomatch hstart

end Tc8Harness.UpperTester
