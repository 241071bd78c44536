import Tc8Harness.Testability.BlockingMode

/-!
# Runs and the blocking mode

Workers and connects that end, and with them the steps of the server: a stream socket's mode stays
settled over every run whose steps all restore it.
-/

namespace Tc8Harness.Testability

open Someip Observe

/-- The worker is done after this answer: its bound is reached, or the stream has ended. -/
def EventWatch.ends (w : EventWatch) (a : Answers) : Bool :=
  match w.kind with
  | .kAccept => w.accepted ≥ w.maxCon || (0 ≤ a.accept && !(w.accepted + 1 < w.maxCon))
  | .kRecvTcp =>
    (w.limitless = false ∧ w.consumed ≥ w.maxLen.toUInt32) || a.stop ≠ .kNone ||
      match a.recvEnd with
      | none | some [] => false
      | some data =>
        !(w.limitless || w.consumed + UInt32.ofNat data.length < w.maxLen.toUInt32)
  | .kRecvUdp =>
    (w.limitless = false ∧ w.consumed ≥ w.maxLen.toUInt32) ||
      match a.recvFromV4 with
      | none => false
      | some (datagram, _) =>
        !(w.limitless || w.consumed + UInt32.ofNat datagram.length < w.maxLen.toUInt32)

namespace ProtocolServer

variable {s s' : ProtocolServer} {a : Answers}

theorem serveOne_keeps (w : EventWatch) (id : UInt16) : (s.serveOne a w id).2.2 = !w.ends a := by
  unfold serveOne EventWatch.ends
  cases w.kind with
  | kAccept =>
    simp only [acceptOne]
    split
    · next hfull => simp [hfull]
    next hroom =>
    split
    · next hneg =>
      have : ¬ 0 ≤ a.accept := by omega
      simp [hroom, this]
    · next hnonneg =>
      have : 0 ≤ a.accept := by omega
      simp [hroom, this]
  | kRecvTcp =>
    simp only [recvForwardTcpOne]
    split
    · next hfull =>
      rw [decide_eq_true hfull, Bool.true_or, Bool.true_or]
      rfl
    next hroom =>
    split
    · next hstop => simp [hstop]
    next hstop =>
    rcases a.recvEnd with _ | _ | ⟨b, data⟩
    · simp [hroom, hstop]
    · simp [hroom, hstop]
    · simp [hroom, hstop]
  | kRecvUdp =>
    simp only [recvForwardUdpOne]
    split
    · next hfull =>
      rw [decide_eq_true hfull, Bool.true_or]
      rfl
    next hroom =>
    rcases a.recvFromV4 with _ | ⟨datagram, src⟩
    · simp [hroom]
    · simp [hroom]

/-- What a worker's body leaves of its socket. -/
structure ServedModes (w : EventWatch) (id : UInt16) (s : ProtocolServer)
    (served : ProtocolServer × EventWatch × Bool) : Prop where
  modes : Modes served.1
  socket : served.1.sockets[id]? = some w.fd
  events : served.1.eventWatches = s.eventWatches
  pendings : served.1.pendingConnects = s.pendingConnects
  fd : served.2.1.fd = w.fd
  mode : SameMode w.fd s served.1

theorem ServedModes.start (h : Modes s) {w : EventWatch} {id : UInt16}
    (hid : s.sockets[id]? = some w.fd) (keep : Bool) : ServedModes w id s (s, w, keep) :=
  ⟨h, hid, rfl, rfl, rfl, .refl w.fd s⟩

theorem ServedModes.act {t : ProtocolServer} {w w' w'' : EventWatch} {id : UInt16} {keep : Bool}
    (h : ServedModes w id s (t, w', keep)) {action : Action} (haction : action.Inert)
    (hfd : w''.fd = w.fd) (keep' : Bool) : ServedModes w id s (t.act action, w'', keep') where
  modes := h.modes.act haction
  socket := h.socket
  events := h.events
  pendings := h.pendings
  fd := hfd
  mode := h.mode.trans (.act ⟨haction.leaves w.fd, haction.streams w.fd⟩)

/-- An accepted connection becomes a socket of its own. -/
theorem accepted_modes (h : Modes s) {w : EventWatch} {id : UInt16}
    (hw : s.eventWatches[id]? = some w) (hnonneg : 0 ≤ a.accept) (hfresh : a.accept ∉ s.openFds)
    (hidle : s.nextIdle = true) (keep : Bool) :
    ServedModes w id s
      (((s.act (.accept w.fd a.accept)).registerSocket a.accept).1, w, keep) := by
  have hid := h.eventLive hw
  simp only [nextIdle, Bool.and_eq_true, Option.isNone_iff_eq_none] at hidle
  have hother : ∀ f, f ≠ a.accept → (Action.accept w.fd a.accept).leaves f = none ∧
      (Action.accept w.fd a.accept).streams f = none :=
    fun f hf => ⟨if_neg fun hc => hf hc.2.symm, if_neg fun hc => hf hc.2.symm⟩
  have hopens : openAfter s.openFds (.accept w.fd a.accept) = insert a.accept s.openFds :=
    if_pos hnonneg
  have hne : w.fd ≠ a.accept := fun heq => hfresh (heq ▸ h.isOpen hid)
  have hnext : id ≠ s.nextSocketId := by
    rintro rfl
    cases hidle.1.symm.trans hw
  refine ⟨?_, ?_, rfl, rfl, rfl, ?_⟩
  · refine (h.obtain hfresh hopens hother).register ?_ ?_ ?_ hidle.1 hidle.2
    · rw [openFds_act, hopens]
      exact Finset.mem_insert_self _ _
    · intro k hk
      exact hfresh (h.isOpen hk)
    · rw [nonBlocking_act, Action.leaves, if_pos ⟨hnonneg, rfl⟩]
      rfl
  · exact (TreeTable.getElem?_insert s.nextSocketId id a.accept).trans ((if_neg hnext).trans hid)
  · have hsame : SameMode w.fd s (s.act (.accept w.fd a.accept)) := .act (hother w.fd hne)
    exact ⟨hsame.nonBlocking, hsame.isTcp⟩

theorem serveOne_modes (h : Modes s) {w : EventWatch} {id : UInt16}
    (hw : s.eventWatches[id]? = some w) (hfresh : 0 ≤ a.accept → a.accept ∉ s.openFds)
    (hidle : s.acceptedFd a id ≠ none → s.nextIdle = true) :
    ServedModes w id s (s.serveOne a w id) := by
  have hid := h.eventLive hw
  have hread : ∀ {action : Action} (keep : Bool), action.Inert →
      ServedModes w id s (s.act action, w, keep) :=
    fun keep haction => (ServedModes.start h hid keep).act haction rfl keep
  have hevent : ∀ socket header dat peer, Action.Inert (.event socket header dat peer) :=
    fun _ _ _ _ => ⟨fun _ => rfl, fun _ => rfl, fun _ => rfl⟩
  unfold serveOne
  cases hkind : w.kind with
  | kAccept =>
    simp only [acceptOne]
    split
    · exact .start h hid false
    next hroom =>
    split
    · next hneg =>
      refine hread true ⟨fun _ => if_neg (by omega), fun _ => if_neg ?_, fun _ => if_neg ?_⟩ <;> omega
    · next hnonneg =>
      have haccepted : s.acceptedFd a id ≠ none := by
        simp [acceptedFd, hw, hkind, UInt16.not_le.mp hroom, not_lt.mp hnonneg]
      refine (accepted_modes h hw (not_lt.mp hnonneg) (hfresh (not_lt.mp hnonneg)) (hidle haccepted)
        true).act (hevent _ _ _ _) ?_ _
      rfl
  | kRecvTcp =>
    have hrecv : Action.Inert (.recvEnd w.fd w.want) := ⟨fun _ => rfl, fun _ => rfl, fun _ => rfl⟩
    simp only [recvForwardTcpOne]
    split
    · exact .start h hid false
    split
    · exact (hread true hrecv).act (hevent _ _ _ _) rfl _
    split
    · exact hread true hrecv
    · exact hread true hrecv
    · refine (hread true hrecv).act (hevent _ _ _ _) ?_ _
      rfl
  | kRecvUdp =>
    have hrecv : Action.Inert (.recvFromV4 w.fd) := ⟨fun _ => rfl, fun _ => rfl, fun _ => rfl⟩
    simp only [recvForwardUdpOne]
    split
    · exact .start h hid false
    split
    · exact hread true hrecv
    · refine (hread true hrecv).act (hevent _ _ _ _) ?_ _
      rfl

/-- A worker that is done leaves its socket non-blocking: it takes a pending connect to need that. -/
theorem onWorkerReadable_modes (h : Modes s) {id : UInt16}
    (hfresh : 0 ≤ a.accept → a.accept ∉ s.openFds)
    (hidle : s.acceptedFd a id ≠ none → s.nextIdle = true)
    (hok : ∀ w, s.eventWatches[id]? = some w → s.isTcp w.fd = true → w.ends a = true →
      s.pendingConnects[id]?.isSome) : Modes (s.onWorkerReadable a id) := by
  unfold onWorkerReadable
  cases hw : s.eventWatches[id]? with
  | none => exact h
  | some w =>
    simp only
    have hserved := serveOne_modes h hw hfresh hidle
    have hkeep := serveOne_keeps (s := s) (a := a) w id
    generalize s.serveOne a w id = served at hserved hkeep ⊢
    have hmodes := hserved.modes
    have hpend : ∀ p, served.1.pendingConnects[id]? = some p →
        p.fd = w.fd ∧ ∀ w', p.forward = some w' → w'.fd = w.fd :=
      fun p => hmodes.pending_fd hserved.socket
    split
    · refine hmodes.touch ?_ hserved.socket ?_ hpend fun htcp => ?_
      · refine .records rfl rfl rfl rfl rfl (fun k hk => ?_) fun _ _ => rfl
        exact (TreeTable.getElem?_insert id k _).trans (if_neg hk)
      · intro v hv
        rw [TreeTable.getElem?_insert, if_pos rfl] at hv
        exact (Option.some.inj hv).symm ▸ hserved.fd
      · have hnow := hmodes.settled id w.fd hserved.socket htcp
        rw [hserved.events, hw] at hnow
        rw [TreeTable.getElem?_insert, if_pos rfl]
        exact hnow
    · next hdone =>
      refine hmodes.touch ?_ hserved.socket ?_ hpend fun htcp => ?_
      · refine .records rfl rfl rfl rfl rfl (fun k hk => ?_) fun _ _ => rfl
        exact (TreeTable.getElem?_erase id k).trans (if_neg hk)
      · intro v hv
        rw [TreeTable.getElem?_erase, if_pos rfl] at hv
        nomatch hv
      · have hnow := hmodes.settled id w.fd hserved.socket htcp
        have hends : w.ends a = true := by simpa [hkeep] using hdone
        have hopen := hok w hw (hserved.mode.isTcp ▸ htcp) hends
        rw [← hserved.pendings] at hopen
        exact iff_of_true (hnow.mpr (.inr hopen)) (.inr hopen)

/-! ## Connects that end -/

/-- An attempt that ends sets the mode back unless a forward is armed for it: a worker must not be
armed already. -/
theorem finishConnect_modes (h : Modes s) {id : UInt16} {p : PendingConnect} {stop : ConnectProgress}
    (hp : s.pendingConnects[id]? = some p)
    (hok : ¬ (stop = .kEstablished ∧ p.forward.isSome) → s.isTcp p.fd = true →
      s.eventWatches[id]? = none) : Modes (s.finishConnect id stop) := by
  have hid := h.pendingLive hp
  have hclosed : Touches id p.fd s (s.closePending id p) := by
    refine .records rfl rfl rfl rfl rfl (fun _ _ => rfl) fun k hk => ?_
    exact (TreeTable.getElem?_erase id k).trans (if_neg hk)
  have hgone : (s.closePending id p).pendingConnects[id]? = none :=
    (TreeTable.getElem?_erase id id).trans (if_pos rfl)
  have hnone : ∀ q, (s.closePending id p).pendingConnects[id]? = some q →
      q.fd = p.fd ∧ ∀ w, q.forward = some w → w.fd = p.fd := by
    intro q hq
    cases hgone.symm.trans hq
  have hback : ¬ (stop = .kEstablished ∧ p.forward.isSome) →
      Modes ((s.closePending id p).act (.setNonBlocking p.fd false)) := by
    intro hplain
    refine h.touch (hclosed.trans (.act (Action.about_setNonBlocking p.fd false))) hid
      (fun w => h.event_fd hid) hnone fun htcp => ?_
    refine iff_of_false ?_ ?_
    · rw [nonBlocking_act, Action.leaves, if_pos rfl]
      simp
    · rintro (harmed | hopen)
      · rw [show ((s.closePending id p).act (.setNonBlocking p.fd false)).eventWatches =
          s.eventWatches from rfl, hok hplain htcp] at harmed
        cases harmed
      · rw [show ((s.closePending id p).act (.setNonBlocking p.fd false)).pendingConnects[id]? = none
          from hgone] at hopen
        cases hopen
  have hsends : ∀ act ∈ p.sends.map fun send => Action.send id p.fd send.payload send.urgent,
      act.Inert := by
    intro act hact
    obtain ⟨send, -, rfl⟩ := List.mem_map.mp hact
    exact ⟨fun _ => rfl, fun _ => rfl, fun _ => rfl⟩
  unfold finishConnect
  simp only [hp, issueSends_eq]
  split
  · next hstop =>
    split
    · next hforward =>
      rw [hforward, Option.isNone_none, if_pos rfl]
      exact (hback (by simp [hforward])).inert hsends
    · next w hforward =>
      rw [hforward, Option.isNone_some, if_neg (by simp)]
      -- the descriptor has been non-blocking since the attempt began
      let sent : ProtocolServer :=
        { s.closePending id p with
          log := (s.closePending id p).log ++
            p.sends.map fun send => Action.send id p.fd send.payload send.urgent }
      have hsent : Touches id p.fd s sent :=
        hclosed.trans (.logged fun act hact => (hsends act hact).about p.fd)
      have harmed : (sent.armEventWatch id w).eventWatches[id]? =
          some { w with id := (sent.reactor.addWatch w.fd (.onWorkerReadable id)).2 } :=
        (TreeTable.getElem?_insert id id _).trans (if_pos rfl)
      refine h.touch (hsent.trans (.armEventWatch id p.fd sent w)) hid ?_ hnone fun htcp => ?_
      · intro v hv
        have hfd : w.fd = p.fd := h.forwardFd hp hforward
        exact (Option.some.inj (harmed.symm.trans hv)) ▸ hfd
      · refine iff_of_true ?_ (.inl (by rw [harmed]; rfl))
        have hmode : SameMode p.fd (s.closePending id p) sent := sameMode_inert hsends p.fd
        have hnow := (h.settled id p.fd hid htcp).mpr (.inr (by rw [hp]; rfl))
        exact hmode.nonBlocking.trans hnow
  · next hstop =>
    have hreported := hback fun hc => hstop hc.1
    have hevent : ∀ socket header dat peer, Action.Inert (.event socket header dat peer) :=
      fun _ _ _ _ => ⟨fun _ => rfl, fun _ => rfl, fun _ => rfl⟩
    split
    · exact hreported.act (hevent _ _ _ _)
    · exact (hreported.act (hevent _ _ _ _)).act (hevent _ _ _ _)

theorem onConnectWritable_modes (h : Modes s) {id : UInt16}
    (hok : ∀ p, s.pendingConnects[id]? = some p → a.connectProgress ≠ .kInProgress →
      ¬ (a.connectProgress = .kEstablished ∧ p.forward.isSome) → s.isTcp p.fd = true →
      s.eventWatches[id]? = none) : Modes (s.onConnectWritable a id) := by
  unfold onConnectWritable
  cases hp : s.pendingConnects[id]? with
  | none => exact h
  | some p =>
    have hprogress : Action.Inert (.connectProgress p.fd) :=
      ⟨fun _ => rfl, fun _ => rfl, fun _ => rfl⟩
    simp only
    split
    · next hover =>
      refine finishConnect_modes (h.act hprogress) (p := p) hp fun hplain htcp => ?_
      refine hok p hp hover hplain ?_
      rw [isTcp_act] at htcp
      exact htcp
    · exact h.act hprogress

theorem reportFailedConnect_modes (h : Modes s) {id : UInt16}
    (hok : ∀ p, s.pendingConnects[id]? = some p → ¬ (p.ended = .kEstablished ∧ p.forward.isSome) →
      s.isTcp p.fd = true → s.eventWatches[id]? = none) : Modes (s.reportFailedConnect id) := by
  unfold reportFailedConnect
  cases hp : s.pendingConnects[id]? with
  | none => exact h
  | some p =>
    have hmodes : Modes { s with
        pendingConnects := s.pendingConnects.insert id { p with report := kNoTimer } } :=
      h.replacePending hp rfl fun w hw => h.forwardFd hp hw
    exact finishConnect_modes hmodes (p := { p with report := kNoTimer })
      ((TreeTable.getElem?_insert id id _).trans (if_pos rfl)) fun hplain htcp => hok p hp hplain htcp

/-! ## Steps -/

/-- The step does not take the last need for the non-blocking mode away without restoring it, does not
restore it under a worker, and registers no socket under an id that has records of an older one. -/
def restores (s : ProtocolServer) (i : Input) : Bool :=
  ((s.registers i).isNone || s.nextIdle) &&
  match s.request i with
  | some req =>
    match req.primitive with
    | .shutdown =>
      match parseShutdownSocket req.dat with
      | none => true
      | some shut =>
        (shutdownHow shut.typeId).isNone || s.pendingConnects[shut.socketId]?.isNone ||
          s.eventWatches[shut.socketId]?.isSome || !(s.sockets[shut.socketId]?.any s.isTcp)
    | _ => true
  | none =>
    match s.fires i.trigger with
    | some (.onWorkerReadable id) =>
      match s.eventWatches[id]? with
      | none => true
      | some w => !(w.ends i.answers) || s.pendingConnects[id]?.isSome || !(s.isTcp w.fd)
    | some (.onConnectWritable id) =>
      match s.pendingConnects[id]? with
      | none => true
      | some p =>
        i.answers.connectProgress = .kInProgress ||
          (i.answers.connectProgress = .kEstablished && p.forward.isSome) ||
          s.eventWatches[id]?.isNone || !(s.isTcp p.fd)
    | some (.reportFailedConnect id) =>
      match s.pendingConnects[id]? with
      | none => true
      | some p =>
        (p.ended = .kEstablished && p.forward.isSome) || s.eventWatches[id]?.isNone || !(s.isTcp p.fd)
    | _ => true

theorem perform_modes (h : Modes s) {req : Request} (p : Primitive) (hp : p ≠ .other)
    (hfresh : 0 ≤ a.create → a.create ∉ s.openFds)
    (hidle : ∀ tcp, p = .createAndBind tcp → createdFd a req.dat ≠ none → s.nextIdle = true)
    (hshut : p = .shutdown → ∀ shut how, parseShutdownSocket req.dat = some shut →
      shutdownHow shut.typeId = some how → s.pendingConnects[shut.socketId]?.isSome →
      ∀ fd, s.sockets[shut.socketId]? = some fd → s.isTcp fd = true →
      s.eventWatches[shut.socketId]?.isSome) : Modes (s.perform a req p).1 := by
  cases p with
  | endTest => exact endTest_modes h
  | createAndBind tcp => exact createAndBind_modes h req.dat tcp hfresh (hidle tcp rfl)
  | connect => exact connectTcp_modes h _ _ _
  | listenAndAccept => exact listenAndAcceptTcp_modes h _ _ _
  | sendDataTcp => exact sendDataTcp_modes h _
  | closeSocket =>
    simp only [perform, noDat, closeSocket]
    cases parseCloseSocket req.dat with
    | none => exact h
    | some close => exact eraseSocket_modes h close.socketId close.abort
  | shutdown => exact shutdownSocket_modes h (hshut rfl)
  | receiveAndForward udp => exact receiveAndForward_modes h _ _ _ udp
  | other => exact absurd rfl hp

theorem entered_eq (s : ProtocolServer) (i : Input) :
    ∃ reactor, s.entered i = { s with reactor := reactor } := by
  unfold entered
  cases i.trigger with
  | watch n => exact ⟨s.reactor, rfl⟩
  | timer n => exact ⟨_, rfl⟩

/-- The reactor is no part of it. -/
theorem Modes.withReactor (h : Modes s) (reactor : Reactor Handler) :
    Modes { s with reactor := reactor } :=
  h.congr rfl (fun _ => rfl) (fun _ => rfl) fun _ => ⟨rfl, rfl⟩

/-- A request: the read, the primitive and the Response. -/
theorem step_request_modes (h : Modes s) {i : Input} {req : Request} (hreq : s.request i = some req)
    (hfresh : FreshFds s i) (hok : s.restores i = true) : Modes (s.step i) := by
  obtain ⟨hidle, hshut⟩ := Bool.and_eq_true_iff.mp hok
  obtain ⟨reactor, hentered⟩ := entered_eq s i
  simp only [registers, hreq] at hidle hshut
  rw [step_of_request hreq, hentered, serve]
  have hrecv : Action.Inert (.recvFromV4 s.fd) := ⟨fun _ => rfl, fun _ => rfl, fun _ => rfl⟩
  have hread := (h.withReactor reactor).act hrecv
  refine Modes.act ?_ ⟨fun _ => rfl, fun _ => rfl, fun _ => rfl⟩
  rcases dispatch_cases (ProtocolServer.act { s with reactor := reactor } (.recvFromV4 s.fd))
    i.answers req with ⟨-, hpasses⟩ | ⟨hne, hperform⟩
  · exact hread.passes hpasses
  · rw [hperform]
    refine perform_modes hread req.primitive hne ?_ ?_ ?_
    · rw [openFds_act, hrecv.opens]
      exact hfresh.create
    · intro tcp hprim hcreated
      show s.nextIdle = true
      simpa [hprim, hcreated] using hidle
    · intro hprim shut how hparse hhow hopen fd hid htcp
      rw [isTcp_act, hrecv.streams] at htcp
      have hid' : s.sockets[shut.socketId]? = some fd := hid
      have htcp' : s.isTcp fd = true := htcp
      have hopen' : s.pendingConnects[shut.socketId]?.isNone = false := by
        rw [Option.isNone_eq_false_iff]
        exact hopen
      show s.eventWatches[shut.socketId]?.isSome = true
      simpa [hprim, hparse, hhow, hopen', hid', htcp'] using hshut

/-- A datagram on the control socket that is no request is read and nothing else. -/
theorem step_control_read {i : Input} (hreq : s.request i = none)
    (hfires : s.fires i.trigger = some .onControlReadable) :
    s.step i = (s.entered i).act (.recvFromV4 (s.entered i).fd) := by
  have hstep : s.step i = (s.entered i).onControlReadable i.answers := by
    rw [step, hfires]
    rfl
  rw [request, if_pos hfires] at hreq
  rw [hstep, onControlReadable]
  cases hreceived : i.answers.recvFromV4 with
  | none => rfl
  | some received =>
    rw [hreceived, Option.bind_some] at hreq
    simp only [hreq]

theorem step_modes (h : Modes s) {i : Input} (hfresh : FreshFds s i) (hok : s.restores i = true) :
    Modes (s.step i) := by
  cases hreq : s.request i with
  | some req => exact step_request_modes h hreq hfresh hok
  | none =>
    obtain ⟨hidle, hends⟩ := Bool.and_eq_true_iff.mp hok
    obtain ⟨reactor, hentered⟩ := entered_eq s i
    have hrun := h.withReactor reactor
    simp only [registers, hreq] at hidle hends
    rcases step_of_no_request hreq with ⟨hfires, hstep⟩ | ⟨hfires, -⟩ | ⟨id, hfires, hstep⟩ |
      ⟨id, hfires, hstep⟩ | ⟨id, hfires, hstep⟩
    · rw [hstep]
      exact h
    · rw [step_control_read hreq hfires, hentered]
      exact hrun.act ⟨fun _ => rfl, fun _ => rfl, fun _ => rfl⟩
    · rw [hstep, hentered]
      simp only [hfires] at hidle hends
      refine onWorkerReadable_modes hrun hfresh.accept ?_ ?_
      · intro haccepted
        show s.nextIdle = true
        simpa [show s.acceptedFd i.answers id ≠ none from haccepted] using hidle
      · intro w hw htcp hdone
        simpa [show s.eventWatches[id]? = some w from hw, hdone,
          show s.isTcp w.fd = true from htcp] using hends
    · rw [hstep, hentered]
      simp only [hfires] at hends
      refine onConnectWritable_modes hrun fun p hp hover hplain htcp => ?_
      simpa [show s.pendingConnects[id]? = some p from hp, hover, hplain,
        show s.isTcp p.fd = true from htcp] using hends
    · rw [hstep, hentered]
      simp only [hfires] at hends
      refine reportFailedConnect_modes hrun fun p hp hplain htcp => ?_
      simpa [show s.pendingConnects[id]? = some p from hp, hplain,
        show s.isTcp p.fd = true from htcp] using hends

theorem start_modes (fd : Int) : Modes (start fd) := by
  have hnone : ∀ {id : UInt16} {f : Int}, (start fd).sockets[id]? = some f → False := by
    intro id f hid
    simp [start] at hid
  refine ⟨fun hid => (hnone hid).elim, fun hid => (hnone hid).elim, ?_, ?_, ?_,
    fun id f hid => (hnone hid).elim⟩
  · intro id w hw
    simp [start] at hw
  · intro id p hp
    simp [start] at hp
  · intro id p w hp
    simp [start] at hp

/-- **The blocking mode is settled while every step restores it.** Over a run in which the backend
hands out no descriptor that is open: a live stream socket is non-blocking exactly while it has a
worker or a pending connect, in every state reached. -/
theorem settled_while_restored (fd : Int) (is : List Input)
    (hfresh : Along step FreshFds (start fd) is)
    (hok : Along step (fun s i => s.restores i = true) (start fd) is) :
    ∀ before after, is = before ++ after → Settled ((start fd).run before) := by
  have h := start_modes fd
  generalize start fd = s at *
  induction is generalizing s with
  | nil =>
    intro before after heq
    rw [(List.append_eq_nil_iff.mp heq.symm).1]
    exact h.settled
  | cons i is ih =>
    intro before after heq
    cases before with
    | nil => exact h.settled
    | cons i' before =>
      obtain ⟨rfl, htail⟩ := List.cons.inj heq
      exact ih _ hfresh.tail hok.tail (step_modes h hfresh.head hok.head) before after htail

/-- A connect with a forward queued establishes and the forward reads: the modes are settled all
along. -/
theorem settled_while_restored_forward :
    ((start 3).run forwardRun).nonBlocking 10 = true ∧
    ∀ before after, forwardRun = before ++ after → Settled ((start 3).run before) :=
  ⟨by decide +kernel,
    settled_while_restored 3 forwardRun (by decide +kernel) (by decide +kernel)⟩

/-- One connection is accepted and reaches the bound of LISTEN_AND_ACCEPT. -/
def acceptRun : List Input :=
  [createInput 10, listenInput 1, ⟨.watch 2, { accept := 11 }⟩]

/-- **A listener is left non-blocking.** Its worker is gone with the accepted connection, no connect
is pending, and nothing has set the mode back. -/
theorem not_settled_accepted :
    Along step FreshFds (start 3) acceptRun ∧
    ((start 3).run acceptRun).sockets[(1 : UInt16)]? = some 10 ∧
    ((start 3).run acceptRun).isTcp 10 = true ∧
    ((start 3).run acceptRun).nonBlocking 10 = true ∧
    ((start 3).run acceptRun).eventWatches[(1 : UInt16)]? = none ∧
    ((start 3).run acceptRun).pendingConnects[(1 : UInt16)]? = none ∧
    ¬ Settled ((start 3).run acceptRun) := by
  have hsocket : ((start 3).run acceptRun).sockets[(1 : UInt16)]? = some 10 := by decide +kernel
  have htcp : ((start 3).run acceptRun).isTcp 10 = true := by decide +kernel
  have hmode : ((start 3).run acceptRun).nonBlocking 10 = true := by decide +kernel
  have hevent : ((start 3).run acceptRun).eventWatches[(1 : UInt16)]? = none := by decide +kernel
  have hpending : ((start 3).run acceptRun).pendingConnects[(1 : UInt16)]? = none := by decide +kernel
  refine ⟨by decide +kernel, hsocket, htcp, hmode, hevent, hpending, ?_⟩
  intro hsettled
  have hneed := (hsettled 1 10 hsocket htcp).mp hmode
  rw [hevent, hpending] at hneed
  exact absurd hneed (by simp)

end ProtocolServer

end Tc8Harness.Testability
