import Tc8Harness.Lib.Observe
import Tc8Harness.Lib.TreeTable
import Tc8Harness.Testability.Requests

/-!
# The socket table

What the server's steps do to the table of sockets and to the descriptors the backend has open
(`step_table`): nothing, one registration, one close, or END_TEST's closing of them all. Everything
else about the sockets is read off this.
-/

namespace Tc8Harness.Testability

open Someip Observe

/-! ## Open descriptors -/

/-- The descriptors open after a call. -/
def openAfter (fds : Finset Int) : Action → Finset Int
  | .createUdp fd => if 0 ≤ fd then insert fd fds else fds
  | .createTcp fd => if 0 ≤ fd then insert fd fds else fds
  | .accept _ conn => if 0 ≤ conn then insert conn fds else fds
  | .closeFd fd => fds.erase fd
  | .closeWithAbort fd => fds.erase fd
  | _ => fds

theorem openAfter_plain {fds : Finset Int} {action : Action} (h : action.Plain) :
    openAfter fds action = fds := by
  cases action <;> first | rfl | exact absurd h id

namespace ProtocolServer

variable {s : ProtocolServer} {a : Answers}

/-- The descriptors the backend has open: the control socket and what the calls so far opened. -/
def openFds (s : ProtocolServer) : Finset Int := s.log.foldl openAfter {s.fd}

/-- The part of the state the socket table's claims are about. -/
structure Table where
  fd : Int
  sockets : Std.TreeMap UInt16 Int
  nextSocketId : UInt16
  registered : Nat
  fds : Finset Int

def table (s : ProtocolServer) : Table :=
  ⟨s.fd, s.sockets, s.nextSocketId, s.registered, s.openFds⟩

def Table.register (t : Table) (fd : Int) : Table :=
  { t with
    sockets := t.sockets.insert t.nextSocketId fd
    nextSocketId := t.nextSocketId + 1
    registered := t.registered + 1
    fds := insert fd t.fds }

def Table.close (t : Table) (id : UInt16) (fd : Int) : Table :=
  { t with sockets := t.sockets.erase id, fds := t.fds.erase fd }

def Table.clear (t : Table) : Table :=
  { t with
    sockets := ∅
    fds := (t.sockets.toList.map (·.2)).foldl (fun fds fd => fds.erase fd) t.fds }

/-! ## Calls that leave the table alone -/

theorem openFds_act (s : ProtocolServer) (action : Action) :
    (s.act action).openFds = openAfter s.openFds action := by
  simp [openFds, act]

/-- A call after which the same descriptors are open. -/
theorem table_act_of_open {action : Action} (h : openAfter s.openFds action = s.openFds) :
    (s.act action).table = s.table := by
  rw [table, table, openFds_act, h]
  rfl

@[simp] theorem table_act_plain {action : Action} (h : action.Plain) :
    (s.act action).table = s.table := table_act_of_open (openAfter_plain h)

theorem Quiet.table_eq {s' : ProtocolServer} (h : Quiet s s') : s'.table = s.table := by
  obtain ⟨acts, hplain, rfl⟩ := h
  have hopen : acts.foldl openAfter s.openFds = s.openFds := by
    induction acts with
    | nil => rfl
    | cons act acts ih =>
      rw [List.foldl_cons, openAfter_plain (hplain act (by simp))]
      exact ih fun act hmem => hplain act (by simp [hmem])
  simp only [table, openFds, List.foldl_append] at hopen ⊢
  rw [hopen]

@[simp] theorem table_stopWorker (id : UInt16) : (s.stopWorker id).table = s.table := by
  unfold stopWorker
  split <;> rfl

@[simp] theorem table_dropPendingConnect (id : UInt16) :
    (s.dropPendingConnect id).table = s.table := by
  unfold dropPendingConnect
  split <;> rfl

@[simp] theorem table_armEventWatch (id : UInt16) (w : EventWatch) :
    (s.armEventWatch id w).table = s.table := rfl

@[simp] theorem table_emitEvent (socket serviceId : UInt16) (gid pid : UInt8) (dat : List UInt8)
    (peer : Endpoint) (rid : UInt8) :
    (s.emitEvent socket serviceId gid pid dat peer rid).table = s.table := table_act_of_open rfl

@[simp] theorem table_endForward (socket : UInt16) (w : EventWatch) (rid : UInt8) :
    (s.endForward socket w rid).table = s.table := table_emitEvent ..

@[simp] theorem table_issueSend (socket : UInt16) (fd : Int) (send : QueuedSend) :
    (s.issueSend socket fd send).table = s.table := table_act_of_open rfl

@[simp] theorem table_entered (i : Input) : (s.entered i).table = s.table := by
  unfold entered
  cases i.trigger <;> rfl

theorem table_dropAllPendingConnects : s.dropAllPendingConnects.table = s.table := by
  unfold dropAllPendingConnects
  generalize s.pendingConnects.keys = ids
  induction ids generalizing s with
  | nil => rfl
  | cons id ids ih => rw [List.foldl_cons, ih, table_dropPendingConnect]

theorem table_stopAllWorkers : s.stopAllWorkers.table = s.table := table_dropAllPendingConnects

theorem table_settleMode (id : UInt16) (fd : Int) : (s.settleMode id fd).table = s.table := by
  unfold settleMode
  split
  · rfl
  · exact table_act_plain trivial

/-! ## Handlers -/

theorem table_registerSocket (fd : Int) :
    (s.registerSocket fd).1.table =
      { s.table with
        sockets := s.sockets.insert s.nextSocketId fd
        nextSocketId := s.nextSocketId + 1
        registered := s.registered + 1 } := rfl

/-- A descriptor obtained and registered. -/
theorem table_obtain {action : Action} {fd : Int}
    (h : openAfter s.openFds action = insert fd s.openFds) {s' : ProtocolServer}
    (hs' : Quiet (s.act action) s') : (s'.registerSocket fd).1.table = s.table.register fd := by
  have htable := hs'.table_eq
  have hact : (s.act action).table = { s.table with fds := insert fd s.openFds } := by
    rw [table, openFds_act, h]
    rfl
  rw [hact] at htable
  have hsockets : s'.sockets = s.sockets := congrArg Table.sockets htable
  have hnext : s'.nextSocketId = s.nextSocketId := congrArg Table.nextSocketId htable
  have hregistered : s'.registered = s.registered := congrArg Table.registered htable
  rw [table_registerSocket, htable, hsockets, hnext, hregistered]
  rfl

/-- The descriptor a CREATE_AND_BIND registers. -/
def createdFd (a : Answers) (dat : List UInt8) : Option Int :=
  match parseCreateAndBind dat with
  | none => none
  | some req => if a.create < 0 ∨ (req.doBind ∧ a.bindV4 = false) then none else some a.create

/-- The descriptor a readable listen socket registers. -/
def acceptedFd (s : ProtocolServer) (a : Answers) (id : UInt16) : Option Int :=
  match s.eventWatches[id]? with
  | none => none
  | some w =>
    if w.kind = .kAccept ∧ w.accepted < w.maxCon ∧ 0 ≤ a.accept then some a.accept else none

/-- The backend hands out no descriptor that is open. -/
structure FreshFds (s : ProtocolServer) (i : Input) : Prop where
  create : 0 ≤ i.answers.create → i.answers.create ∉ s.openFds
  accept : 0 ≤ i.answers.accept → i.answers.accept ∉ s.openFds

/-- The table after a registration, if there was one. -/
def Table.registerIf (t : Table) : Option Int → Table
  | none => t
  | some fd => t.register fd

theorem table_createAndBind (dat : List UInt8) (tcp : Bool)
    (hfresh : 0 ≤ a.create → a.create ∉ s.openFds) :
    (s.createAndBind a dat tcp).1.table = s.table.registerIf (createdFd a dat) := by
  unfold createAndBind createdFd
  cases parseCreateAndBind dat with
  | none => rfl
  | some req =>
    simp only
    have hopened : openAfter s.openFds (if tcp then .createTcp a.create else .createUdp a.create) =
        if 0 ≤ a.create then insert a.create s.openFds else s.openFds := by
      cases tcp <;> rfl
    generalize (if tcp = true then Action.createTcp a.create else .createUdp a.create) = opening
      at hopened ⊢
    by_cases hneg : a.create < 0
    · rw [if_pos hneg, if_pos (.inl hneg)]
      exact table_act_of_open (by rw [hopened, if_neg (by omega)])
    · rw [if_pos (by omega)] at hopened
      generalize hbound : (if req.doBind = true then
          ((s.act opening).act (.setReuseAddr a.create)).act (.bindV4 a.create
            (bindAddr req.localAddr) (if req.localPort = 0xFFFF then 0 else req.localPort))
        else s.act opening) = bound
      have hquiet : Quiet (s.act opening) bound := by
        rw [← hbound]
        split
        · exact .trans (.act _ (by trivial)) (.act _ (by trivial))
        · exact .refl _
      by_cases hfailed : req.doBind ∧ a.bindV4 = false
      · -- the descriptor is closed again, so what was open is open
        have hfds : (bound.act (.closeFd a.create)).openFds = s.openFds := by
          have hbfds : bound.openFds = insert a.create s.openFds := by
            rw [← hopened, ← openFds_act]
            exact congrArg Table.fds hquiet.table_eq
          rw [openFds_act, hbfds, openAfter, Finset.erase_insert (hfresh (by omega))]
        rw [if_neg hneg, if_pos hfailed, if_pos (.inr hfailed)]
        obtain ⟨acts, -, rfl⟩ := hquiet
        rw [table, hfds]
        rfl
      · rw [if_neg hneg, if_neg hfailed, if_neg (by rintro (h | h); exacts [hneg h, hfailed h])]
        exact table_obtain hopened hquiet

theorem table_openPending (req : ConnectReq) (fd : Int) (serviceId : UInt16) (peer : Endpoint) :
    (s.openPending a req fd serviceId peer).table = s.table := by
  unfold openPending
  simp only
  split <;> exact table_stopWorker req.socketId

theorem table_connectTcp (dat : List UInt8) (serviceId : UInt16) (peer : Endpoint) :
    (s.connectTcp a dat serviceId peer).1.table = s.table := by
  unfold connectTcp
  split
  · rfl
  split
  · rfl
  split
  · rfl
  have hstart : ∀ dst fd, (s.act (.connectStartV4 fd dst)).table = s.table :=
    fun _ _ => table_act_plain trivial
  simp only
  split
  · rw [table_settleMode, hstart]
  · rw [table_settleMode, hstart]
  · rw [table_settleMode, hstart]
  · rw [table_openPending, hstart]

theorem table_listenAndAcceptTcp (dat : List UInt8) (serviceId : UInt16) (peer : Endpoint) :
    (s.listenAndAcceptTcp a dat serviceId peer).1.table = s.table := by
  unfold listenAndAcceptTcp
  split
  · rfl
  simp only
  split
  · rfl
  split
  · exact table_act_plain trivial
  · rw [table_armEventWatch]
    exact .trans (table_act_plain (by trivial))
      (.trans (table_stopWorker _) (table_act_plain (by trivial)))

theorem table_sendDataTcp (dat : List UInt8) : (s.sendDataTcp a dat).1.table = s.table := by
  unfold sendDataTcp
  split
  · rfl
  split
  · rfl
  simp only
  split
  · split <;> rfl
  · exact table_issueSend ..

theorem table_shutdownSocket (dat : List UInt8) : (s.shutdownSocket a dat).1.table = s.table := by
  unfold shutdownSocket
  split
  · rfl
  split
  · rfl
  split
  · rfl
  · exact .trans (table_act_plain (by trivial)) (table_dropPendingConnect _)

theorem table_receiveAndForward (dat : List UInt8) (serviceId : UInt16) (peer : Endpoint)
    (udp : Bool) : (s.receiveAndForward a dat serviceId peer udp).1.table = s.table := by
  unfold receiveAndForward
  split
  · rfl
  split
  · rfl
  simp only
  split
  · rfl
  · rw [table_armEventWatch]
    refine .trans (table_act_plain trivial) (.trans (table_stopWorker _) ?_)
    refine .trans (table_act_plain trivial) ?_
    refine .trans (Quiet.table_eq ⟨_, ?_, rfl⟩) (table_act_plain trivial)
    intro act hmem
    rw [List.eq_of_mem_replicate hmem]
    trivial

/-- CLOSE_SOCKET closes what its id names, and nothing when it names nothing. -/
theorem table_eraseSocket (id : UInt16) (abort : Bool) :
    (s.eraseSocket id abort).1.table =
      match s.sockets[id]? with
      | none => s.table
      | some fd => s.table.close id fd := by
  have hstopped : ((s.stopWorker id).dropPendingConnect id).table = s.table := by simp
  have hsockets : ((s.stopWorker id).dropPendingConnect id).sockets = s.sockets :=
    congrArg Table.sockets hstopped
  unfold eraseSocket
  simp only [hsockets]
  cases s.sockets[id]? with
  | none => exact hstopped
  | some fd =>
    have hopen : ((s.stopWorker id).dropPendingConnect id).openFds = s.openFds :=
      congrArg Table.fds hstopped
    simp only [Table.close]
    rw [table, openFds_act]
    generalize (s.stopWorker id).dropPendingConnect id = stopped at *
    cases abort <;> simp_all [table, openFds, openAfter, act]

theorem table_closeAllSockets : s.closeAllSockets.table = s.table.clear := by
  have hfds : s.closeAllSockets.openFds =
      (s.sockets.toList.map (·.2)).foldl (fun fds fd => fds.erase fd) s.openFds := by
    simp only [openFds, closeAllSockets, List.foldl_append, List.foldl_map]
    rfl
  rw [table, hfds]
  rfl

theorem table_acceptOne (w : EventWatch) (id : UInt16) :
    (s.acceptOne a w id).1.table =
      s.table.registerIf (if w.accepted < w.maxCon ∧ 0 ≤ a.accept then some a.accept else none) := by
  unfold acceptOne
  by_cases hbound : w.accepted ≥ w.maxCon
  · rw [if_pos hbound, if_neg (by rintro ⟨h, -⟩; exact absurd h (UInt16.not_lt.mpr hbound))]
    rfl
  · rw [if_neg hbound]
    simp only
    by_cases hneg : a.accept < 0
    · rw [if_pos hneg, if_neg (by omega)]
      exact table_act_of_open (by rw [openAfter, if_neg (by omega)])
    · rw [if_neg hneg, if_pos ⟨UInt16.not_le.mp hbound, by omega⟩, table_emitEvent]
      exact table_obtain (by rw [openAfter, if_pos (by omega)]) (.refl _)

theorem table_recvForwardTcpOne (w : EventWatch) (id : UInt16) :
    (s.recvForwardTcpOne a w id).1.table = s.table := by
  unfold recvForwardTcpOne
  split
  · rfl
  simp only
  split
  · exact (table_endForward ..).trans (table_act_plain (by trivial))
  split
  · exact table_act_plain trivial
  · exact table_act_plain trivial
  · exact (table_emitEvent ..).trans (table_act_plain (by trivial))

theorem table_recvForwardUdpOne (w : EventWatch) (id : UInt16) :
    (s.recvForwardUdpOne a w id).1.table = s.table := by
  unfold recvForwardUdpOne
  split
  · rfl
  simp only
  split
  · exact table_act_plain trivial
  · exact (table_emitEvent ..).trans (table_act_plain (by trivial))

theorem table_onWorkerReadable (id : UInt16) :
    (s.onWorkerReadable a id).table = s.table.registerIf (s.acceptedFd a id) := by
  unfold onWorkerReadable acceptedFd
  cases s.eventWatches[id]? with
  | none => rfl
  | some w =>
    have hserved : (s.serveOne a w id).1.table = s.table.registerIf
        (if w.kind = .kAccept ∧ w.accepted < w.maxCon ∧ 0 ≤ a.accept then some a.accept
          else none) := by
      unfold serveOne
      cases w.kind with
      | kAccept => simp [table_acceptOne]
      | kRecvTcp => simp [table_recvForwardTcpOne, Table.registerIf]
      | kRecvUdp => simp [table_recvForwardUdpOne, Table.registerIf]
    simp only
    split <;> exact hserved

theorem table_issueSends (id : UInt16) (fd : Int) (sends : List QueuedSend) :
    (sends.foldl (fun s send => s.issueSend id fd send) s).table = s.table := by
  induction sends generalizing s with
  | nil => rfl
  | cons send sends ih => rw [List.foldl_cons, ih, table_issueSend]

theorem table_finishConnect (id : UInt16) (stop : ConnectProgress) :
    (s.finishConnect id stop).table = s.table := by
  unfold finishConnect
  cases s.pendingConnects[id]? with
  | none => rfl
  | some p =>
    have hclosed : (s.closePending id p).table = s.table := rfl
    simp only
    split
    · have hmode : (if p.forward.isNone then
          (s.closePending id p).act (.setNonBlocking p.fd false)
        else s.closePending id p).table = s.table := by
        split
        · exact (table_act_plain (by trivial)).trans hclosed
        · exact hclosed
      split
      · exact (table_issueSends ..).trans hmode
      · exact ((table_armEventWatch ..).trans (table_issueSends ..)).trans hmode
    · have hreported : ∀ rid, (((s.closePending id p).act (.setNonBlocking p.fd false)).emitEvent id
          p.serviceId kGidTcp kPidConnect [] p.peer rid).table = s.table :=
        fun _ => (table_emitEvent ..).trans ((table_act_plain (by trivial)).trans hclosed)
      split
      · exact hreported _
      · exact (table_endForward ..).trans (hreported _)

theorem table_onConnectWritable (id : UInt16) : (s.onConnectWritable a id).table = s.table := by
  unfold onConnectWritable
  split
  · rfl
  simp only
  split
  · exact (table_finishConnect ..).trans (table_act_plain (by trivial))
  · exact table_act_plain trivial

theorem table_reportFailedConnect (id : UInt16) : (s.reportFailedConnect id).table = s.table := by
  unfold reportFailedConnect
  split
  · rfl
  · exact table_finishConnect ..

/-! ## Steps -/

/-- The descriptor a step registers. -/
def registers (s : ProtocolServer) (i : Input) : Option Int :=
  match s.request i with
  | some req =>
    match req.primitive with
    | .createAndBind _ => createdFd i.answers req.dat
    | _ => none
  | none =>
    match s.fires i.trigger with
    | some (.onWorkerReadable id) => s.acceptedFd i.answers id
    | _ => none

/-- The id a CLOSE_SOCKET names. -/
def closesId (s : ProtocolServer) (i : Input) : Option UInt16 :=
  match s.request i with
  | some req =>
    match req.primitive with
    | .closeSocket => (parseCloseSocket req.dat).map (·.socketId)
    | _ => none
  | none => none

/-- The step serves END_TEST. -/
def endsTest (s : ProtocolServer) (i : Input) : Bool :=
  match s.request i with
  | some req => req.primitive = .endTest
  | none => false

/-- The table after a CLOSE_SOCKET that names a live id. -/
def Table.closeIf (t : Table) : Option UInt16 → Table
  | none => t
  | some id =>
    match t.sockets[id]? with
    | none => t
    | some fd => t.close id fd

theorem table_perform {req : Request} (p : Primitive) (hp : p ≠ .other)
    (hfresh : 0 ≤ a.create → a.create ∉ s.openFds) :
    (s.perform a req p).1.table =
      match p with
      | .endTest => s.table.clear
      | .createAndBind _ => s.table.registerIf (createdFd a req.dat)
      | .closeSocket => s.table.closeIf ((parseCloseSocket req.dat).map (·.socketId))
      | _ => s.table := by
  cases p with
  | endTest => rw [perform, table_closeAllSockets, table_stopAllWorkers]
  | createAndBind tcp => exact table_createAndBind req.dat tcp hfresh
  | connect => exact table_connectTcp ..
  | listenAndAccept => exact table_listenAndAcceptTcp ..
  | sendDataTcp => exact table_sendDataTcp ..
  | closeSocket =>
    simp only [perform, noDat, closeSocket]
    cases parseCloseSocket req.dat with
    | none => rfl
    | some close => exact table_eraseSocket ..
  | shutdown => exact table_shutdownSocket ..
  | receiveAndForward udp => exact table_receiveAndForward ..
  | other => exact absurd rfl hp

/-- **What a step does to the sockets**: END_TEST, a close, a registration, or nothing; never two of
them. -/
theorem step_table {i : Input} (hfresh : FreshFds s i) :
    (s.step i).table =
      if s.endsTest i then s.table.clear
      else (s.table.closeIf (s.closesId i)).registerIf (s.registers i) := by
  cases hreq : s.request i with
  | some req =>
    have hread : ((s.entered i).act (.recvFromV4 s.fd)).table = s.table :=
      (table_act_plain (by trivial)).trans (table_entered i)
    rw [step_of_request hreq, serve, table_act_of_open rfl]
    simp only [endsTest, closesId, registers, hreq]
    generalize (s.entered i).act (.recvFromV4 s.fd) = read at hread ⊢
    have hfresh' : 0 ≤ i.answers.create → i.answers.create ∉ read.openFds := by
      rw [show read.openFds = s.openFds from congrArg Table.fds hread]
      exact hfresh.create
    have hdispatch := dispatch_spec read i.answers req
    generalize read.dispatch i.answers req.header req.dat req.peer = done at hdispatch ⊢
    generalize req.primitive = p at hdispatch ⊢
    rcases hdispatch with ⟨rfl, hquiet⟩ | ⟨hne, rfl⟩
    · exact hquiet.table_eq.trans hread
    · rw [table_perform p hne hfresh', hread]
      cases p <;> rfl
  | none =>
    simp only [endsTest, closesId, registers, hreq, Bool.false_eq_true, if_false, Table.closeIf]
    rcases step_of_no_request hreq with ⟨hfires, hstep⟩ | ⟨hfires, hquiet⟩ | ⟨id, hfires, hstep⟩ |
      ⟨id, hfires, hstep⟩ | ⟨id, hfires, hstep⟩
    · rw [hstep, hfires]
      rfl
    · rw [hquiet.table_eq, hfires, table_entered]
      rfl
    · have hwatches : (s.entered i).eventWatches = s.eventWatches := by
        unfold entered
        cases i.trigger <;> rfl
      rw [hstep, hfires, table_onWorkerReadable, table_entered]
      simp only [acceptedFd, hwatches]
    · rw [hstep, hfires, table_onConnectWritable, table_entered]
      rfl
    · rw [hstep, hfires, table_reportFailedConnect, table_entered]
      rfl

theorem closesId_of_registers {i : Input} {fd : Int} (h : s.registers i = some fd) :
    s.endsTest i = false ∧ s.closesId i = none := by
  unfold registers at h
  unfold endsTest closesId
  generalize s.request i = served at h ⊢
  cases served with
  | none => exact ⟨rfl, rfl⟩
  | some req =>
    simp only at h ⊢
    generalize req.primitive = p at h ⊢
    cases p with
    | createAndBind tcp => exact ⟨rfl, rfl⟩
    | _ => nomatch h

end ProtocolServer

end Tc8Harness.Testability
