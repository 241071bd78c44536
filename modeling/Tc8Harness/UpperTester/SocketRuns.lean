import Tc8Harness.UpperTester.SocketSlots

/-!
# TCP sockets over a run

Every request, every datagram of the data listener and every turn of a TCP worker keeps `Owned`; an open
that gets its socket does so when `next_tcp_socket_id_` names no slot. The id comes from a wrapping
counter and `emplace` leaves an entry that is there, so a run in which an id comes round while its slot
is live ends the process, and all of its sockets are lost (`not_kept_wrapped`).
-/

namespace Tc8Harness.UpperTester

open BigEndian Wire Someip Hoare Observe
open Testability (Endpoint RecvEnd)

variable {σ : Type} {env : Env σ} {isOpen : σ → Int → Prop} {slots : Std.TreeMap UInt8 TcpSlot}
  {next : UInt8} {loose : List Int} {s : Server σ}

/-! ## Slots -/

/-- The new socket goes into a slot of its own where the next id is free. -/
theorem emplaceSlot_owned {slot : TcpSlot} {fd : Int} (hnext : slots[next]? = none)
    (hfds : slot.fds = [fd]) (hwaits : slot.accepting = true → slot.acceptedFd < 0) :
    Ensures (Held isOpen slots next [fd]) (emplaceSlot slot fd) fun _ => Owned isOpen [] := by
  rintro s ⟨h, rfl, rfl⟩
  have hnone : ∀ fd', ¬ s.Holds s.nextTcpSocketId fd' := by
    rintro fd' ⟨slot', hslot', -⟩
    rw [hnext] at hslot'
    nomatch hslot'
  have hcontains : ¬ s.tcpSlots.contains s.nextTcpSocketId = true := by
    rw [Std.TreeMap.contains_eq_isSome_getElem?, hnext]
    simp
  have hgains : ∀ fd', slot.Holds fd' ↔ fd' ∈ [fd] ∨ s.Holds s.nextTcpSocketId fd' := by
    intro fd'
    rw [← TcpSlot.mem_fds, hfds]
    exact ⟨.inl, fun hor => hor.resolve_right (hnone fd')⟩
  have hin : Owned isOpen []
      { s with tcpSlots := s.tcpSlots.insert s.nextTcpSocketId slot } :=
    h.insert rfl rfl rfl hgains hwaits
  have hholds : ({ s with tcpSlots := s.tcpSlots.insert s.nextTcpSocketId slot } : Server σ).Holds
      s.nextTcpSocketId fd := by
    rw [holds_insert rfl, if_pos rfl, hgains]
    exact .inl (List.mem_singleton_self fd)
  have hnew : ∀ fd', (s.nextTcpSocketId, fd') ∉ names s.log := fun fd' hname =>
    hnone fd' (h.named _ fd' hname)
  have hopened := hin.opened hholds hnew (if s.nextTcpSocketId + 1 = 0 then 1 else s.nextTcpSocketId + 1)
  unfold emplaceSlot
  simp only [StateT.run, if_neg hcontains]
  exact ⟨_, _, rfl, hopened⟩

/-- What a slot has after its acceptor's turn: `new` besides what it had. -/
structure Gains (slot : TcpSlot) (new : List Int) (slot' : TcpSlot) : Prop where
  holds : ∀ fd, slot'.Holds fd ↔ fd ∈ new ∨ slot.Holds fd
  waiting : slot'.accepting = true → slot'.acceptedFd < 0

theorem Gains.none {slot : TcpSlot} (hwaits : slot.accepting = true → slot.acceptedFd < 0) :
    Gains slot [] slot := ⟨fun fd => by simp, hwaits⟩

theorem Gains.accepted {slot : TcpSlot} {conn : Int} (hnonneg : 0 ≤ conn) (hwaits : slot.acceptedFd < 0) :
    Gains slot [conn] { slot with acceptedFd := conn, accepting := false } := by
  refine ⟨fun fd => ?_, fun h => nomatch h⟩
  rw [List.mem_singleton]
  constructor
  · rintro ⟨hfd, hlisten | hconn⟩
    · exact .inr ⟨hfd, .inl hlisten⟩
    · exact .inl hconn.symm
  · rintro (rfl | ⟨hfd, hlisten | hconn⟩)
    · exact ⟨hnonneg, .inr rfl⟩
    · exact ⟨hfd, .inl hlisten⟩
    · omega

/-- The slot and the server when a worker has had its turn. -/
def Turned (isOpen : σ → Int → Prop) (slots : Std.TreeMap UInt8 TcpSlot) (next : UInt8)
    (loose : List Int) (slot slot' : TcpSlot) (s : Server σ) : Prop :=
  ∃ new, Held isOpen slots next (new ++ loose) s ∧ Gains slot new slot'

section Operations

variable (hfresh : FreshFds env isOpen)

include hfresh

theorem acceptorTurn_turned {slot : TcpSlot} (hwaits : slot.acceptedFd < 0) :
    Ensures (Held isOpen slots next loose) (acceptorTurn env slot)
      (Turned isOpen slots next loose slot) := by
  refine (call_quiet hfresh fun _ => rfl).bind fun sr => ensures_ite (fun _ => ?_) fun _ => ?_
  · exact ensures_pure fun s hs => ⟨[], hs, ⟨fun fd => by simp [TcpSlot.Holds], fun h => nomatch h⟩⟩
  · refine ensures_ite (fun _ => ?_) fun _ => ?_
    · exact ensures_pure fun s hs => ⟨[], hs, .none fun _ => hwaits⟩
    · refine (call_accept hfresh).bind fun conn => ensures_ite (fun hneg => ?_) fun hnonneg => ?_
      · refine ensures_pure fun s hs => ⟨[], ?_, .none fun _ => hwaits⟩
        rwa [handed, if_pos hneg] at hs
      · refine ensures_pure fun s hs => ⟨[conn], ?_, .accepted (not_lt.mp hnonneg) hwaits⟩
        rwa [handed, if_neg hnonneg] at hs

theorem joinWorker_turned {slot : TcpSlot} (hwaits : slot.accepting = true → slot.acceptedFd < 0) :
    Ensures (Held isOpen slots next loose) (joinWorker env slot)
      (Turned isOpen slots next loose slot) := by
  refine ensures_ite (fun hacc => ?_) fun _ => ?_
  · refine (call_quiet hfresh fun _ => rfl).bind fun turn => ensures_ite (fun _ => ?_) fun _ => ?_
    · exact acceptorTurn_turned hfresh (hwaits hacc)
    · exact ensures_pure fun s hs => ⟨[], hs, .none hwaits⟩
  · exact ensures_pure fun s hs => ⟨[], hs, .none hwaits⟩

omit hfresh in
/-- Reading the state fixes the table and the next id. -/
theorem owned_get_bind {β : Type} {k : Server σ → UT σ β} {R : β → Server σ → Prop}
    (h : ∀ s, Owned isOpen loose s →
      Ensures (Held isOpen s.tcpSlots s.nextTcpSocketId loose) (k s) R) :
    Ensures (Owned isOpen loose) (get >>= k) R := fun s hs => h s hs s ⟨hs, rfl, rfl⟩

omit hfresh in
theorem holds_of_getElem? {sid : UInt8} {slot : TcpSlot} (hslot : s.tcpSlots[sid]? = some slot)
    (fd : Int) : s.Holds sid fd ↔ slot.Holds fd := by
  unfold Server.Holds
  rw [hslot]
  simp

theorem tcpAcceptorLoop_owned (sid : UInt8) :
    Ensures (Owned isOpen []) (tcpAcceptorLoop env sid) fun _ => Owned isOpen [] := by
  refine owned_get_bind fun s hs => ?_
  cases hslot : s.tcpSlots[sid]? with
  | none => exact ensures_pure fun t ht => ht.1
  | some slot =>
    refine ensures_ite (fun hacc => ?_) fun _ => ?_
    · refine (acceptorTurn_turned hfresh (hs.waiting sid slot hslot hacc)).bind fun slot' => ?_
      refine ensures_modify ?_
      rintro t ⟨new, ⟨ht, hslots, -⟩, hgains⟩
      rw [List.append_nil] at ht
      refine ht.insert rfl rfl rfl (fun fd => ?_) hgains.waiting
      rw [holds_of_getElem? (hslots ▸ hslot)]
      exact hgains.holds fd
    · exact ensures_pure fun t ht => ht.1

theorem tcpConnectorLoop_owned (sid : UInt8) :
    Ensures (Owned isOpen []) (tcpConnectorLoop env sid) fun _ => Owned isOpen [] := by
  refine owned_get_bind fun s hs => ?_
  cases hslot : s.tcpSlots[sid]? with
  | none => exact ensures_pure fun t ht => ht.1
  | some slot =>
    refine ensures_ite (fun _ => ?_) fun _ => ?_
    · refine (call_quiet hfresh fun _ => rfl).bind fun _ => ensures_modify ?_
      rintro t ⟨ht, hslots, -⟩
      refine ht.insert rfl rfl rfl (fun fd => ?_) (hs.waiting sid slot hslot)
      rw [holds_of_getElem? (hslots ▸ hslot)]
      simp [TcpSlot.Holds]
    · exact ensures_pure fun t ht => ht.1

/-! ## Closing -/

omit hfresh in
/-- There is nothing to close behind a negative descriptor. -/
theorem Held.filter_neg {fd : Int} (hneg : ¬ 0 ≤ fd) (h : Held isOpen slots next loose s) :
    Held isOpen slots next (loose.filter (· ≠ fd)) s := by
  rw [List.filter_eq_self.mpr]
  · exact h
  · intro fd' hfd'
    have hnonneg : 0 ≤ fd' := h.1.nonneg fd' hfd'
    rw [decide_eq_true_eq]
    omega

theorem closeAccepted_held {fd : Int} (abort : Bool) (hfree : 0 ≤ fd → Unheld slots fd) :
    Ensures (Held isOpen slots next loose) (closeAccepted env fd abort)
      fun _ => Held isOpen slots next (loose.filter (· ≠ fd)) := by
  refine ensures_ite (fun hnonneg => ensures_ite (fun _ => ?_) fun _ => ?_) fun hneg => ?_
  · exact call_close hfresh (fun _ => rfl) (hfree hnonneg)
  · exact call_close hfresh (fun _ => rfl) (hfree hnonneg)
  · exact ensures_pure fun s hs => hs.filter_neg hneg

theorem closeListener_held {fd : Int} (hfree : 0 ≤ fd → Unheld slots fd) :
    Ensures (Held isOpen slots next loose) (closeListener env fd)
      fun _ => Held isOpen slots next (loose.filter (· ≠ fd)) := by
  refine ensures_ite (fun hnonneg => ?_) fun hneg => ?_
  · exact call_close hfresh (fun _ => rfl) (hfree hnonneg)
  · exact ensures_pure fun s hs => hs.filter_neg hneg

theorem unblockConnector_held (slot : TcpSlot) :
    Ensures (Held isOpen slots next loose) (unblockConnector env slot)
      fun _ => Held isOpen slots next loose := by
  refine ensures_ite (fun _ => ?_) fun _ => ?_
  · exact (call_quiet hfresh fun _ => rfl).bind fun _ => ensures_pure fun s hs => hs
  · exact ensures_pure fun s hs => hs

/-- Both descriptors of a slot that has been taken out are closed. -/
theorem closeSlot_held {slot : TcpSlot} (abort : Bool) (hmem : ∀ fd, slot.Holds fd ↔ fd ∈ loose) :
    Ensures (Held isOpen slots next loose)
      (do closeAccepted env slot.acceptedFd abort
          closeListener env slot.listenFd
          return true)
      fun _ => Owned isOpen [] := by
  intro s hs
  have hfree : ∀ fd, 0 ≤ fd → slot.listenFd = fd ∨ slot.acceptedFd = fd → Unheld slots fd :=
    fun fd hnonneg hor => hs.unheld ((hmem fd).mp ⟨hnonneg, hor⟩)
  have hnone : (loose.filter (· ≠ slot.acceptedFd)).filter (· ≠ slot.listenFd) = [] := by
    rw [List.filter_filter, List.filter_eq_nil_iff]
    intro fd hfd
    obtain ⟨-, h | h⟩ := (hmem fd).mpr hfd <;> simp [h]
  refine ((closeAccepted_held hfresh abort fun h => hfree _ h (.inr rfl)).bind fun _ =>
    (closeListener_held hfresh fun h => hfree _ h (.inl rfl)).bind fun _ => ensures_pure ?_) s hs
  rintro t ⟨ht, -⟩
  rwa [hnone] at ht

theorem tearDownSlot_owned (sid : UInt8) (abort : Bool) :
    Ensures (Owned isOpen []) (tearDownSlot env sid abort) fun _ => Owned isOpen [] := by
  refine owned_get_bind fun s hs => ?_
  cases hslot : s.tcpSlots[sid]? with
  | none => exact ensures_pure fun t ht => ht.1
  | some slot =>
    have htake : Ensures (Held isOpen s.tcpSlots s.nextTcpSocketId []) (takeSlot sid)
        fun _ => Held isOpen (s.tcpSlots.erase sid) s.nextTcpSocketId slot.fds := by
      refine ensures_modify ?_
      rintro t ⟨ht, hslots, hnext⟩
      exact ⟨ht.take (hslots ▸ hslot), hslots ▸ rfl, hnext⟩
    refine htake.bind fun _ => (unblockConnector_held hfresh slot).bind fun _ => ?_
    refine (joinWorker_turned hfresh (hs.waiting sid slot hslot)).bind fun slot' => ?_
    rintro t ⟨new, ht, hgains⟩
    refine closeSlot_held hfresh abort (fun fd => ?_) t ht
    rw [hgains.holds, List.mem_append, TcpSlot.mem_fds]

/-! ## The handlers that leave the table alone -/

omit hfresh in
/-- The table, the next id and the sockets stay as they are. -/
def Keeps {α : Type} (isOpen : σ → Int → Prop) (m : UT σ α) : Prop :=
  ∀ slots next, Ensures (Held isOpen slots next []) m fun _ => Held isOpen slots next []

section Keeps

variable {α β : Type} {m : UT σ α}

omit hfresh in
theorem Keeps.owned (h : Keeps isOpen m) : Ensures (Owned isOpen []) m fun _ => Owned isOpen [] := by
  intro s hs
  obtain ⟨a, t, hrun, ht⟩ := h s.tcpSlots s.nextTcpSocketId s ⟨hs, rfl, rfl⟩
  exact ⟨a, t, hrun, ht.1⟩

omit hfresh in
theorem keeps_pure (a : α) : Keeps isOpen (pure a : UT σ α) :=
  fun _ _ => ensures_pure fun _ hs => hs

omit hfresh in
theorem Keeps.bind {k : α → UT σ β} (hm : Keeps isOpen m) (hk : ∀ a, Keeps isOpen (k a)) :
    Keeps isOpen (m >>= k) := fun slots next => (hm slots next).bind fun a => hk a slots next

omit hfresh in
theorem keeps_get_bind {k : Server σ → UT σ β} (hk : ∀ s, Keeps isOpen (k s)) :
    Keeps isOpen (get >>= k) :=
  fun slots next => ensures_get_bind fun s => (hk s slots next).pre fun _ h => h.2

omit hfresh in
theorem keeps_ite {c : Prop} [Decidable c] {m' : UT σ α} (ht : Keeps isOpen m) (hf : Keeps isOpen m') :
    Keeps isOpen (if c then m else m') :=
  fun slots next => ensures_ite (fun _ => ht slots next) fun _ => hf slots next

theorem keeps_call {op : Op α} (hop : ∀ a, op.events a = []) : Keeps isOpen (call env op) :=
  fun _ _ => call_quiet hfresh hop

end Keeps

omit hfresh in
theorem slotExists_keeps (sid : UInt8) : Keeps isOpen (slotExists sid : UT σ Bool) :=
  keeps_get_bind fun _ => keeps_pure _

omit hfresh in
theorem slotConnFd_keeps (sid : UInt8) : Keeps isOpen (slotConnFd sid : UT σ Int) :=
  keeps_get_bind fun _ => keeps_pure _

theorem sendAll_keeps (fd : Int) (bytes : List UInt8) : Keeps isOpen (sendAll env fd bytes) := by
  fun_induction sendAll env fd bytes with
  | case1 => exact keeps_pure true
  | case2 byte bytes ih =>
    refine (keeps_call hfresh fun _ => rfl).bind fun rc => ?_
    split
    · next hpos => exact ih rc hpos
    · exact keeps_pure false

theorem sendOn_keeps (sid : UInt8) (bytes : List UInt8) : Keeps isOpen (sendOn env sid bytes) :=
  (slotExists_keeps sid).bind fun _ => keeps_ite
    ((slotConnFd_keeps sid).bind fun fd => keeps_ite
      ((sendAll_keeps hfresh fd bytes).bind fun _ => keeps_pure _) (keeps_pure _))
    (keeps_pure _)

theorem receiveUntil_keeps (fd deadline : Int) (want : Nat) :
    Keeps isOpen (receiveUntil env fd deadline want) := by
  induction want using Nat.strong_induction_on with
  | _ want ih =>
    rw [receiveUntil]
    refine keeps_ite (keeps_pure _) ((keeps_call hfresh fun _ => rfl).bind fun now => ?_)
    refine keeps_ite (keeps_pure _) ((keeps_call hfresh fun _ => rfl).bind fun _ => ?_)
    refine (keeps_call hfresh fun _ => rfl).bind fun got => ?_
    obtain ⟨bytes, stop⟩ := got
    dsimp only
    split
    · next hpos => exact (ih _ (by omega)).bind fun _ => keeps_pure _
    · exact keeps_pure _

/-! ## The UDP sockets of the server -/

theorem closeUdp_keeps {α : Type} {fd : Int} {a : α} (hfree : Unheld slots fd) :
    Ensures (Held isOpen slots next []) (do call env (.closeFd fd); return a)
      fun _ => Held isOpen slots next [] :=
  (call_close hfresh (fun _ => rfl) hfree).bind fun _ => ensures_pure fun _ hs => hs

theorem triggerSendUdp_keeps (srcPort : UInt16) (dstIpBe : UInt32) (dstPort : UInt16)
    (payload : List UInt8) (srcIpOverrideBe : UInt32) :
    Keeps isOpen (triggerSendUdp env srcPort dstIpBe dstPort payload srcIpOverrideBe) := by
  intro slots next
  refine (call_createUdp hfresh).bind fun fd => ensures_and_left fun hfree => ?_
  refine ensures_ite (fun _ => ensures_pure fun s hs => hs) fun hnonneg => ?_
  refine (call_quiet hfresh fun _ => rfl).bind fun _ => (call_quiet hfresh fun _ => rfl).bind fun _ => ?_
  refine ensures_get_bind fun s => Ensures.pre ?_ fun _ h => h.2
  refine (call_quiet hfresh fun _ => rfl).bind fun _ => ensures_ite (fun _ => ?_) fun _ => ?_
  · exact (call_quiet hfresh fun _ => rfl).bind fun rc => closeUdp_keeps hfresh (hfree (not_lt.mp hnonneg))
  · exact closeUdp_keeps hfresh (hfree (not_lt.mp hnonneg))

theorem bindUdpReceivePorts_keeps (count : Nat) : Keeps isOpen (bindUdpReceivePorts env count) := by
  induction count with
  | zero => exact keeps_pure 0
  | succ count ih =>
    intro slots next
    refine (call_createUdp hfresh).bind fun fd => ensures_and_left fun hfree => ?_
    refine ensures_ite (fun _ => ensures_pure fun s hs => hs) fun hnonneg => ?_
    refine (call_quiet hfresh fun _ => rfl).bind fun _ => ensures_ite (fun _ => ?_) fun _ => ?_
    · refine (ensures_modify fun s hs => ?_).bind fun _ =>
        (ih slots next).bind fun _ => ensures_pure fun s hs => hs
      exact ⟨hs.1.congr rfl rfl fun _ _ hopen => hopen, hs.2⟩
    · exact closeUdp_keeps hfresh (hfree (not_lt.mp hnonneg))

theorem createUdpReceivePorts_keeps (count : UInt8) : Keeps isOpen (createUdpReceivePorts env count) :=
  (bindUdpReceivePorts_keeps hfresh count.toNat).bind fun _ => keeps_get_bind fun _ => keeps_pure _

/-! ## The data requests -/

omit hfresh in
theorem handleGetReceivedUdp_keeps (p : List UInt8) :
    Keeps isOpen (handleGetReceivedUdp p : UT σ Reply) := by
  refine keeps_ite (keeps_pure _) (Keeps.bind ?_ fun receipt => ?_)
  · exact keeps_get_bind fun _ => keeps_pure _
  · cases receipt <;> exact keeps_pure _

theorem handleTriggerSendUdp_keeps (p : List UInt8) : Keeps isOpen (handleTriggerSendUdp env p) :=
  keeps_ite (keeps_pure _) (keeps_ite
    ((triggerSendUdp_keeps hfresh _ _ _ _ _).bind fun _ => keeps_pure _) (keeps_pure _))

theorem handleQueryTcpEstablished_keeps (p : List UInt8) :
    Keeps isOpen (handleQueryTcpEstablished env p) := by
  refine keeps_ite (keeps_pure _) ((slotExists_keeps _).bind fun _ => keeps_ite ?_ (keeps_pure _))
  refine (slotConnFd_keeps _).bind fun fd => keeps_ite ?_ (keeps_pure _)
  exact (keeps_call hfresh fun _ => rfl).bind fun _ => keeps_pure _

theorem handleSendTcpData_keeps (p : List UInt8) : Keeps isOpen (handleSendTcpData env p) :=
  keeps_ite (keeps_pure _) (keeps_ite (keeps_pure _) (sendOn_keeps hfresh _ _))

theorem handleSendTcpDataPattern_keeps (p : List UInt8) :
    Keeps isOpen (handleSendTcpDataPattern env p) :=
  keeps_ite (keeps_pure _) (sendOn_keeps hfresh _ _)

theorem handleReceiveTcpData_keeps (p : List UInt8) : Keeps isOpen (handleReceiveTcpData env p) := by
  refine keeps_ite (keeps_pure _) ((slotExists_keeps _).bind fun _ => keeps_ite ?_ (keeps_pure _))
  refine (slotConnFd_keeps _).bind fun fd => keeps_ite ?_ (keeps_pure _)
  refine (keeps_call hfresh fun _ => rfl).bind fun now => ?_
  exact (receiveUntil_keeps hfresh _ _ _).bind fun _ => keeps_pure _

theorem handleShutdownTcpSocketWr_keeps (p : List UInt8) :
    Keeps isOpen (handleShutdownTcpSocketWr env p) := by
  refine keeps_ite (keeps_pure _) ((slotConnFd_keeps _).bind fun fd => keeps_ite ?_ (keeps_pure _))
  exact (keeps_call hfresh fun _ => rfl).bind fun _ => keeps_pure _

theorem handleReceiveTcpDataOob_keeps (p : List UInt8) :
    Keeps isOpen (handleReceiveTcpDataOob env p) := by
  refine keeps_ite (keeps_pure _) ((slotExists_keeps _).bind fun _ => keeps_ite ?_ (keeps_pure _))
  refine (slotConnFd_keeps _).bind fun fd => keeps_ite ?_ (keeps_pure _)
  exact (keeps_call hfresh fun _ => rfl).bind fun _ => keeps_pure _

theorem handleQueryTcpInfo_keeps (p : List UInt8) : Keeps isOpen (handleQueryTcpInfo env p) := by
  refine keeps_ite (keeps_pure _) ((slotExists_keeps _).bind fun _ => keeps_ite ?_ (keeps_pure _))
  refine (slotConnFd_keeps _).bind fun fd => keeps_ite (keeps_pure _) ?_
  refine (keeps_call hfresh fun _ => rfl).bind fun info => ?_
  cases info <;> exact keeps_pure _

theorem handleCreateUdpReceivePorts_keeps (p : List UInt8) :
    Keeps isOpen (handleCreateUdpReceivePorts env p) :=
  keeps_ite (keeps_pure _) ((createUdpReceivePorts_keeps hfresh _).bind fun _ => keeps_pure _)

omit hfresh in
theorem handlePing_keeps (p : List UInt8) : Keeps isOpen (handlePing p : UT σ Reply) :=
  keeps_get_bind fun _ => keeps_pure _

omit hfresh in
theorem handleQueryCapabilities_keeps (p : List UInt8) :
    Keeps isOpen (handleQueryCapabilities p : UT σ Reply) :=
  keeps_get_bind fun _ => keeps_pure _

/-! ## The requests -/

/-- The socket an OpenTcpSocket request asks the backend for. -/
def requestedSocket (env : Env σ) (p : List UInt8) : UT σ (Option Int) :=
  if p.length < 3 then return none
  else if p.getD 0 0 = kSocketTypePassive then passiveSocket env (readU16 p 1)
  else if p.getD 0 0 = kSocketTypeActive then
    if p.length < 3 + 4 + 2 then return none else activeSocket env (readU16 p 1)
  else return none

/-- The datagram is an OpenTcpSocket request and the backend gives it its socket. -/
def opensSocket (env : Env σ) (s : Server σ) (datagram : List UInt8) : Bool :=
  decide (2 ≤ datagram.length) && datagram.getD 0 0 == opOpenTcpSocket &&
    ((requestedSocket env ((datagram.take kUtRequestBufferLen).drop 2)).run s).any (·.1.isSome)

/-- The next id is free if the backend gives out the socket. -/
def Frees (isOpen : σ → Int → Prop) (socket : UT σ (Option Int)) (s : Server σ) : Prop :=
  Owned isOpen [] s ∧ ((socket.run s).any (·.1.isSome) = true → s.tcpSlots[s.nextTcpSocketId]? = none)

omit hfresh in
/-- What a passive and an active open have in common. -/
theorem open_owned {socket : UT σ (Option Int)} {slot : Int → TcpSlot}
    (hsocket : ∀ slots next, Ensures (Held isOpen slots next []) socket
      fun made => Held isOpen slots next made.toList)
    (hfds : ∀ fd, 0 ≤ fd → (slot fd).fds = [fd])
    (hwaits : ∀ fd, (slot fd).accepting = true → (slot fd).acceptedFd < 0) :
    Ensures (Frees isOpen socket)
      (do match ← socket with
          | none => return none
          | some fd => some <$> emplaceSlot (slot fd) fd)
      fun _ => Owned isOpen [] := by
  rintro s ⟨hs, hfree⟩
  obtain ⟨made, t, hrun, hmade⟩ := hsocket s.tcpSlots s.nextTcpSocketId s ⟨hs, rfl, rfl⟩
  rw [hrun] at hfree
  rw [StateT.run_bind, hrun]
  cases made with
  | none => exact ⟨_, _, rfl, hmade.1⟩
  | some fd =>
    have hnonneg : 0 ≤ fd := hmade.1.nonneg fd (List.mem_singleton_self fd)
    exact Ensures.map (R := fun _ => Owned isOpen [])
      (emplaceSlot_owned (hfree rfl) (hfds fd hnonneg) (hwaits fd)) t hmade

theorem openTcpPassive_owned (localPort : UInt16) :
    Ensures (Frees isOpen (passiveSocket env localPort)) (openTcpPassive env localPort)
      fun _ => Owned isOpen [] := by
  refine open_owned (fun _ _ => passiveSocket_held hfresh localPort) (fun fd hnonneg => ?_) ?_
  · simp [TcpSlot.fds, hnonneg]
  · exact fun _ _ => Int.negSucc_lt_zero 0

theorem openTcpActive_owned (localPort : UInt16) (remoteIpBe : UInt32) (remotePort : UInt16) :
    Ensures (Frees isOpen (activeSocket env localPort))
      (openTcpActive env localPort remoteIpBe remotePort) fun _ => Owned isOpen [] := by
  refine open_owned (fun _ _ => activeSocket_held hfresh localPort) (fun fd hnonneg => ?_) ?_
  · simp [TcpSlot.fds, hnonneg]
  · intro fd haccepting
    exact absurd haccepting Bool.false_ne_true

theorem handleOpenTcpSocket_owned (p : List UInt8) :
    Ensures (Frees isOpen (requestedSocket env p)) (handleOpenTcpSocket env p)
      fun _ => Owned isOpen [] := by
  unfold requestedSocket
  refine ensures_ite (fun _ => ensures_pure fun s hs => hs.1) fun hshort => ?_
  rw [if_neg hshort]
  refine ensures_ite (fun hpassive => ?_) fun hpassive => ?_
  · rw [if_pos hpassive]
    refine (openTcpPassive_owned hfresh _).bind fun sid => ?_
    cases sid <;> exact ensures_pure fun s hs => hs
  · rw [if_neg hpassive]
    refine ensures_ite (fun hactive => ?_) fun _ => ensures_pure fun s hs => hs.1
    rw [if_pos hactive]
    refine ensures_ite (fun _ => ensures_pure fun s hs => hs.1) fun hfull => ?_
    rw [if_neg hfull]
    refine (openTcpActive_owned hfresh _ _ _).bind fun sid => ?_
    cases sid <;> exact ensures_pure fun s hs => hs

theorem tearDown_owned (abort : Bool) (p : List UInt8) :
    Ensures (Owned isOpen []) (tearDown env abort p) fun _ => Owned isOpen [] := by
  refine ensures_ite (fun _ => ensures_pure fun s hs => hs) fun _ => ?_
  exact (tearDownSlot_owned hfresh _ abort).bind fun _ => ensures_pure fun s hs => hs

omit hfresh in
/-- One row of a table that is searched row by row. -/
theorem forall_mem_row {α : Type} {c : Prop} [Decidable c] {a : α} {rest : Option α} {P : α → Prop}
    (ha : c → P a) (hrest : ∀ b ∈ rest, P b) : ∀ b ∈ if c then some a else rest, P b := by
  by_cases h : c
  · rw [if_pos h]
    rintro b ⟨⟩
    exact ha h
  · rw [if_neg h]
    exact hrest

/-- Every handler but that of OpenTcpSocket. -/
theorem builtin_owned {opcode : UInt8} (hopen : opcode ≠ opOpenTcpSocket) (p : List UInt8) :
    ∀ handler ∈ builtin env opcode,
      Ensures (Owned isOpen []) (handler p) fun _ => Owned isOpen [] := by
  unfold builtin
  refine forall_mem_row (fun _ => (handleGetReceivedUdp_keeps p).owned) ?_
  refine forall_mem_row (fun _ => (handleTriggerSendUdp_keeps hfresh p).owned) ?_
  refine forall_mem_row (fun heq => absurd heq hopen) ?_
  refine forall_mem_row (fun _ => tearDown_owned hfresh false p) ?_
  refine forall_mem_row (fun _ => (handleQueryTcpEstablished_keeps hfresh p).owned) ?_
  refine forall_mem_row (fun _ => (handleSendTcpData_keeps hfresh p).owned) ?_
  refine forall_mem_row (fun _ => (handleReceiveTcpData_keeps hfresh p).owned) ?_
  refine forall_mem_row (fun _ => (handleShutdownTcpSocketWr_keeps hfresh p).owned) ?_
  refine forall_mem_row (fun _ => tearDown_owned hfresh true p) ?_
  refine forall_mem_row (fun _ => (handleSendTcpDataPattern_keeps hfresh p).owned) ?_
  refine forall_mem_row (fun _ => (handleReceiveTcpDataOob_keeps hfresh p).owned) ?_
  refine forall_mem_row (fun _ => (handleQueryTcpInfo_keeps hfresh p).owned) ?_
  refine forall_mem_row (fun _ => (handleCreateUdpReceivePorts_keeps hfresh p).owned) ?_
  refine forall_mem_row (fun _ => (handlePing_keeps p).owned) ?_
  refine forall_mem_row (fun _ => (handleQueryCapabilities_keeps p).owned) ?_
  intro handler hfound
  nomatch hfound

theorem dispatch_owned {opcode : UInt8} (p : List UInt8) :
    Ensures (fun s => Owned isOpen [] s ∧ (opcode = opOpenTcpSocket → Frees isOpen (requestedSocket env p) s))
      (dispatch env (fun _ => none) opcode p) fun _ => Owned isOpen [] := by
  unfold dispatch
  rw [Option.none_or]
  by_cases hopen : opcode = opOpenTcpSocket
  · subst hopen
    exact (handleOpenTcpSocket_owned hfresh p).pre fun s hs => hs.2 rfl
  · cases hfound : builtin env opcode with
    | none => exact ensures_pure fun s hs => hs.1
    | some handler => exact (builtin_owned hfresh hopen p handler hfound).pre fun s hs => hs.1

theorem utServerLoop_owned (datagram : List UInt8) (peer : Endpoint) :
    Ensures (fun s => Owned isOpen [] s ∧
        (opensSocket env s datagram = true → s.tcpSlots[s.nextTcpSocketId]? = none))
      (utServerLoop env (fun _ => none) datagram peer) fun _ => Owned isOpen [] := by
  refine ensures_ite (fun _ => ensures_pure fun s hs => hs.1) fun hshort => ?_
  refine ensures_ite (fun _ => ensures_pure fun s hs => hs.1) fun _ => ?_
  refine Ensures.bind (Ensures.pre (dispatch_owned hfresh _) ?_) fun reply => ?_
  · rintro s ⟨hs, hfree⟩
    refine ⟨hs, fun hopen => ⟨hs, fun hsome => hfree ?_⟩⟩
    have hlong : 2 ≤ datagram.length := by omega
    have hhead : datagram.getD 0 0 = opOpenTcpSocket := by
      rw [← hopen, List.getD_eq_getElem?_getD, List.getD_eq_getElem?_getD, List.getElem?_take,
        if_pos (by decide)]
    rw [opensSocket, hhead, hsome, decide_eq_true hlong]
    rfl
  · exact (keeps_get_bind fun s => (keeps_call hfresh fun _ => rfl).bind fun _ => keeps_pure _).owned

end Operations

/-! ## Runs -/

/-- What the loops of the server take. -/
inductive Input where
  | request (datagram : List UInt8) (peer : Endpoint)
  | datagram (d : UdpDatagram)
  | acceptor (sid : UInt8)
  | connector (sid : UInt8)

def turn (env : Env σ) : Input → UT σ Unit
  | .request datagram peer => utServerLoop env (fun _ => none) datagram peer
  | .datagram d => dataListenerLoop d
  | .acceptor sid => tcpAcceptorLoop env sid
  | .connector sid => tcpConnectorLoop env sid

/-- A process that has been terminated takes no more inputs. -/
def step (env : Env σ) (process : Option (Server σ)) (i : Input) : Option (Server σ) :=
  process.bind fun s => ((turn env i).run s).map Prod.snd

/-- An open that gets its socket finds that `next_tcp_socket_id_` names no slot. -/
def freeId (env : Env σ) : Option (Server σ) → Input → Bool
  | some s, .request datagram _ => !opensSocket env s datagram || !s.tcpSlots.contains s.nextTcpSocketId
  | _, _ => true

/-- The process is still there, and no socket of its is lost. -/
def KeptAlive (process : Option (Server σ)) : Prop := ∃ s, process = some s ∧ Kept s

theorem dataListenerLoop_owned (d : UdpDatagram) :
    Ensures (Owned isOpen []) (dataListenerLoop d : UT σ Unit) fun _ => Owned isOpen [] := by
  refine ensures_modify fun s hs => ?_
  split_ifs
  · exact hs
  · exact hs
  · exact hs
  · exact hs.congr rfl rfl fun _ _ hopen => hopen

/-- **One step.** -/
theorem step_owned (hfresh : FreshFds env isOpen) {i : Input} (hs : Owned isOpen [] s)
    (hfree : freeId env (some s) i = true) : ∃ t, step env (some s) i = some t ∧ Owned isOpen [] t := by
  have hturn : Ensures (· = s) (turn env i) fun _ => Owned isOpen [] := by
    cases i with
    | request datagram peer =>
      refine (utServerLoop_owned hfresh datagram peer).pre ?_
      rintro t rfl
      refine ⟨hs, fun hopens => ?_⟩
      have hcontains : t.tcpSlots.contains t.nextTcpSocketId = false := by
        simpa [freeId, hopens] using hfree
      rw [Std.TreeMap.contains_eq_isSome_getElem?, Option.isSome_eq_false_iff] at hcontains
      exact Option.isNone_iff_eq_none.mp hcontains
    | datagram d => exact (dataListenerLoop_owned d).pre fun t ht => ht ▸ hs
    | acceptor sid => exact (tcpAcceptorLoop_owned hfresh sid).pre fun t ht => ht ▸ hs
    | connector sid => exact (tcpConnectorLoop_owned hfresh sid).pre fun t ht => ht ▸ hs
  obtain ⟨answer, t, hrun, ht⟩ := hturn s rfl
  refine ⟨t, ?_, ht⟩
  rw [step, Option.bind_some, hrun, Option.map_some]

theorem owned_started (hslots : s.tcpSlots = ∅) (hlog : s.log = []) : Owned isOpen [] s := by
  have hnone : ∀ sid : UInt8, s.tcpSlots[sid]? = none := fun sid => by rw [hslots]; rfl
  have hholds : ∀ sid fd, ¬ s.Holds sid fd := by
    rintro sid fd ⟨slot, hslot, -⟩
    rw [hnone] at hslot
    nomatch hslot
  have hlive : live s.log = [] := by rw [hlog]; rfl
  have hnames : names s.log = [] := by rw [hlog]; rfl
  refine ⟨by simp, ?_, by simp, ?_, ?_, ?_, ?_, ?_⟩
  · intro fd
    simp [hlive, hholds]
  · intro sid sid' fd h
    exact absurd h (hholds sid fd)
  · simp [hlive]
  · simp [hnames]
  · simp [hnames]
  · intro sid slot hslot
    rw [hnone] at hslot
    nomatch hslot

theorem run_owned (hfresh : FreshFds env isOpen) {is : List Input} (hs : Owned isOpen [] s)
    (hfree : Along (step env) (fun p i => freeId env p i = true) (some s) is) :
    ∃ t, is.foldl (step env) (some s) = some t ∧ Owned isOpen [] t := by
  induction is generalizing s with
  | nil => exact ⟨s, rfl, hs⟩
  | cons i is ih =>
    obtain ⟨t, hstep, ht⟩ := step_owned hfresh hs hfree.head
    have hrest := hfree.tail
    rw [hstep] at hrest
    rw [List.foldl_cons, hstep]
    exact ih ht hrest

/-- **No TCP socket is lost**, in every state of every run in which an open never takes an id that names
a slot, with a backend that hands out fresh descriptors. -/
theorem kept_run (hfresh : FreshFds env isOpen) (hslots : s.tcpSlots = ∅) (hlog : s.log = [])
    {is : List Input} (hfree : Along (step env) (fun p i => freeId env p i = true) (some s) is) :
    ∀ before after, is = before ++ after → KeptAlive (before.foldl (step env) (some s)) := by
  rintro before after rfl
  obtain ⟨t, hrun, ht⟩ := run_owned hfresh (owned_started hslots hlog) hfree.left
  exact ⟨t, hrun, ht.toKept⟩

/-! ## A backend that counts -/

/-- Hands out the descriptors in order. -/
def countingRun : {α : Type} → Op α → Nat → α × Nat
  | _, .createUdp, n => (n, n + 1)
  | _, .createTcp, n => (n, n + 1)
  | _, .setReuseAddr _, n => ((), n)
  | _, .setBroadcast _, n => ((), n)
  | _, .setRecvTimeoutMs _ _, n => ((), n)
  | _, .bindV4 _ _ _, n => (true, n)
  | _, .listen _ _, n => (true, n)
  | _, .accept _, n => (n, n + 1)
  | _, .waitReadable _ _, n => (1, n)
  | _, .connectBoundedV4 _ _ _, n => (true, n)
  | _, .shutdown _ _, n => (true, n)
  | _, .closeFd _, n => ((), n)
  | _, .closeWithAbort _, n => ((), n)
  | _, .send _ bytes, n => (⟨bytes.length, le_rfl⟩, n)
  | _, .recvEnd _ _, n => ((⟨[], Nat.zero_le _⟩, .kNone), n)
  | _, .sendToV4 _ bytes _, n => (bytes.length, n)
  | _, .queryTcpInfo _, n => (none, n)
  | _, .recvOob _ _ _, n => (⟨[], Nat.zero_le _⟩, n)
  | _, .now, n => (0, n)
  | _, .acceptorTurn _, n => (true, n)

def countingEnv : Env Nat := ⟨countingRun⟩

theorem freshFds_countingEnv : FreshFds countingEnv fun n fd => fd < n := by
  refine ⟨?_, ?_, ?_⟩
  · intro α op n fd hev
    cases op <;> simp_all [countingEnv, countingRun, Op.events]
  · intro n _
    simp [countingEnv, countingRun]
  · intro α op n fd _ hlt
    cases op <;> simp_all [countingEnv, countingRun] <;> omega

def started : Server Nat := { dataPort := 13400, utFd := 100, net := 200 }

/-- A listener on a port of the stack's choice. -/
def passiveOpen : Input := .request [opOpenTcpSocket, 7, kSocketTypePassive, 0, 0] ⟨0, 30600⟩

def activeOpen : Input :=
  .request [opOpenTcpSocket, 8, kSocketTypeActive, 0x1F, 0x91, 10, 0, 0, 1, 0x1F, 0x92] ⟨0, 30600⟩

def closeOf (sid : UInt8) : Input := .request [opCloseTcpSocket, 9, sid] ⟨0, 30600⟩

/-- A listener accepts and is closed while an active socket stays. -/
def openAndClose : List Input := [passiveOpen, .acceptor 1, activeOpen, .connector 2, closeOf 1]

theorem kept_openAndClose :
    Along (step countingEnv) (fun p i => freeId countingEnv p i = true) (some started) openAndClose ∧
      (openAndClose.foldl (step countingEnv) (some started)).map (fun s => (names s.log, live s.log)) =
        some ([(2, 202)], [202]) ∧
      KeptAlive (openAndClose.foldl (step countingEnv) (some started)) := by
  have hfree : Along (step countingEnv) (fun p i => freeId countingEnv p i = true) (some started)
      openAndClose := by decide +kernel
  refine ⟨hfree, by decide +kernel, ?_⟩
  exact kept_run freshFds_countingEnv rfl rfl hfree openAndClose [] (List.append_nil _).symm

/-- The process after so many passive opens. -/
def afterOpens (count : Nat) : Option (Server Nat) :=
  (List.replicate count passiveOpen).foldl (step countingEnv) (some started)

/-- With 255 slots in the table the 256th open takes the id of the first, whose slot is live: the
process is terminated, and nothing is left to own their sockets. -/
theorem not_kept_wrapped : FreshFds countingEnv (fun n fd => fd < n) ∧
    (afterOpens 255).map (fun s => s.tcpSlots.size) = some 255 ∧
    ¬ KeptAlive ((List.replicate 256 passiveOpen).foldl (step countingEnv) (some started)) := by
  -- the first 255 opens are run once, for their slots and for what the last one then meets
  have hfull : (afterOpens 255).any (fun s => decide (s.tcpSlots.size = 255) &&
      (step countingEnv (some s) passiveOpen).isNone) = true := by decide +kernel
  obtain ⟨s, hrun, hs⟩ := (Option.any_eq_true _ _).mp hfull
  rw [Bool.and_eq_true, decide_eq_true_eq, Option.isNone_iff_eq_none] at hs
  refine ⟨freshFds_countingEnv, ?_, ?_⟩
  · rw [hrun, Option.map_some, hs.1]
  · rintro ⟨t, hlast, -⟩
    have hconcat : List.replicate 256 passiveOpen = List.replicate 255 passiveOpen ++ [passiveOpen] :=
      List.replicate_succ'
    rw [hconcat, List.foldl_append] at hlast
    change [passiveOpen].foldl (step countingEnv) (afterOpens 255) = some t at hlast
    rw [hrun, List.foldl_cons, List.foldl_nil, hs.2] at hlast
    cases hlast

end Tc8Harness.UpperTester
