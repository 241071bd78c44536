import Tc8Harness.Testability.WatchHandles

/-!
# Steps beside a socket

A step that serves no request for a socket and does not run its worker leaves the socket's record and
its Events alone (`step_beside`), whatever it does with the others.
-/

namespace Tc8Harness.Testability

open Someip

def Action.isEventOf (id : UInt16) : Action → Bool
  | .event socket .. => socket == id
  | _ => false

/-- The Events of the socket so far. -/
def ProtocolServer.eventsOf (s : ProtocolServer) (id : UInt16) : List Action :=
  s.log.filter (Action.isEventOf id)

namespace ProtocolServer

variable {s s' : ProtocolServer} {a : Answers} {id : UInt16}

/-- The socket's record and Events are left alone, and no connect comes to be pending on it. -/
structure Beside (id : UInt16) (s s' : ProtocolServer) : Prop where
  record : s'.eventWatches[id]? = s.eventWatches[id]?
  pending : s.pendingConnects[id]? = none → s'.pendingConnects[id]? = none
  events : s'.eventsOf id = s.eventsOf id

theorem Beside.refl (id : UInt16) (s : ProtocolServer) : Beside id s s := ⟨rfl, fun h => h, rfl⟩

theorem Beside.trans {s'' : ProtocolServer} (h : Beside id s s') (h' : Beside id s' s'') :
    Beside id s s'' :=
  ⟨h'.record.trans h.record, fun hp => h'.pending (h.pending hp), h'.events.trans h.events⟩

theorem Beside.logged (h : Beside id s s') (acts : List Action)
    (hacts : ∀ act ∈ acts, act.isEventOf id = false) :
    Beside id s { s' with log := s'.log ++ acts } := by
  refine ⟨h.record, h.pending, ?_⟩
  have hnone : acts.filter (Action.isEventOf id) = [] :=
    List.filter_eq_nil_iff.mpr fun act hact => by rw [hacts act hact]; simp
  rw [← h.events, eventsOf, List.filter_append, hnone, List.append_nil]
  rfl

theorem Beside.act (h : Beside id s s') (action : Action) (hother : action.isEventOf id = false) :
    Beside id s (s'.act action) :=
  h.logged [action] (by simpa using hother)

theorem Beside.emitEvent {k : UInt16} (h : Beside id s s') (hne : k ≠ id) (serviceId : UInt16)
    (gid pid : UInt8) (dat : List UInt8) (peer : Endpoint) (rid : UInt8) :
    Beside id s (s'.emitEvent k serviceId gid pid dat peer rid) :=
  h.act _ (by simpa [Action.isEventOf] using hne)

theorem Beside.register (h : Beside id s s') (fd : Int) : Beside id s (s'.registerSocket fd).1 :=
  h.trans ⟨rfl, fun hp => hp, rfl⟩

theorem Beside.stopWorker {k : UInt16} (h : Beside id s s') (hne : k ≠ id) :
    Beside id s (s'.stopWorker k) := by
  refine h.trans ?_
  unfold ProtocolServer.stopWorker
  split
  · exact .refl id s'
  · exact ⟨(TreeTable.getElem?_erase k id).trans (if_neg hne.symm), fun hp => hp, rfl⟩

theorem Beside.dropPendingConnect (h : Beside id s s') (k : UInt16) :
    Beside id s (s'.dropPendingConnect k) := by
  refine h.trans ?_
  unfold ProtocolServer.dropPendingConnect
  split
  · exact .refl id s'
  · refine ⟨rfl, fun hp => ?_, rfl⟩
    refine (TreeTable.getElem?_erase k id).trans ?_
    split
    · rfl
    · exact hp

theorem Beside.armEventWatch {k : UInt16} (h : Beside id s s') (hne : k ≠ id) (w : EventWatch) :
    Beside id s (s'.armEventWatch k w) :=
  h.trans ⟨(TreeTable.getElem?_insert k id _).trans (if_neg hne.symm), fun hp => hp, rfl⟩

theorem Beside.insertPending {k : UInt16} (h : Beside id s s') (hne : k ≠ id) (p : PendingConnect)
    (reactor : Reactor Handler) :
    Beside id s
      { s' with reactor := reactor, pendingConnects := s'.pendingConnects.insert k p } :=
  h.trans ⟨rfl, fun hp => (TreeTable.getElem?_insert k id p).trans ((if_neg hne.symm).trans hp), rfl⟩

theorem Beside.openPending (h : Beside id s s') {req : ConnectReq} (fd : Int) (serviceId : UInt16)
    (peer : Endpoint) (hne : req.socketId ≠ id) :
    Beside id s (s'.openPending a req fd serviceId peer) := by
  unfold ProtocolServer.openPending
  simp only
  split
  · exact (h.stopWorker hne).insertPending hne _ _
  · exact (h.stopWorker hne).insertPending hne _ _

/-! ## Requests -/

theorem createAndBind_beside (dat : List UInt8) (tcp : Bool) :
    Beside id s (s.createAndBind a dat tcp).1 := by
  have h := Beside.refl id s
  unfold createAndBind
  split
  · exact h
  next req _ =>
  simp only
  have hmade : Beside id s (s.act (if tcp then .createTcp a.create else .createUdp a.create)) :=
    h.act _ (by split <;> rfl)
  generalize s.act (if tcp then .createTcp a.create else .createUdp a.create) = made at *
  split
  · exact hmade
  have hbound : Beside id s (if req.doBind then
      (made.act (.setReuseAddr a.create)).act (.bindV4 a.create (bindAddr req.localAddr)
        (if req.localPort = 0xFFFF then 0 else req.localPort)) else made) := by
    split
    · exact (hmade.act _ rfl).act _ rfl
    · exact hmade
  split
  · exact hbound.act _ rfl
  · exact hbound.register _

theorem connectTcp_beside {dat : List UInt8} (serviceId : UInt16) (peer : Endpoint)
    (hne : ∀ req, parseConnectTcp dat = some req → a.connectStartV4.settles = false →
      req.socketId ≠ id) : Beside id s (s.connectTcp a dat serviceId peer).1 := by
  have h := Beside.refl id s
  unfold connectTcp
  split
  · exact h
  next req hreq =>
  split
  · exact h
  next fd _ =>
  split
  · exact h
  have hstarted := h.act (.connectStartV4 fd req.dst) rfl
  have hsettled : Beside id s ((s.act (.connectStartV4 fd req.dst)).settleMode req.socketId fd) := by
    unfold settleMode
    split
    · exact hstarted
    · exact hstarted.act _ rfl
  simp only
  cases hstart : a.connectStartV4 with
  | kEstablished | kAlreadyConnected | kFailed => exact hsettled
  | kInProgress | kRefused | kReset | kTimedOut =>
    exact hstarted.openPending fd serviceId peer (hne req hreq (by rw [hstart]; rfl))

theorem listenAndAcceptTcp_beside {dat : List UInt8} (serviceId : UInt16) (peer : Endpoint)
    (hne : ∀ req, parseListenAndAcceptTcp dat = some req → a.listen = true →
      req.listenSocketId ≠ id) : Beside id s (s.listenAndAcceptTcp a dat serviceId peer).1 := by
  have h := Beside.refl id s
  unfold listenAndAcceptTcp
  split
  · exact h
  next req hreq =>
  simp only
  split
  · exact h
  split
  · exact h.act _ rfl
  · next hlisten =>
    have hother := hne req hreq (by simpa using hlisten)
    exact (((h.act _ rfl).stopWorker hother).act _ rfl).armEventWatch hother _

/-- A send on a pending connect is queued; on any other socket it is made at once. -/
theorem sendDataTcp_beside (hpending : s.pendingConnects[id]? = none) (dat : List UInt8) :
    Beside id s (s.sendDataTcp a dat).1 := by
  have h := Beside.refl id s
  unfold sendDataTcp
  split
  · exact h
  next req _ =>
  split
  · exact h
  simp only
  split
  · next p hp =>
    split
    · exact h
    · refine h.insertPending (fun heq => ?_) _ s.reactor
      rw [heq, hpending] at hp
      nomatch hp
  · exact h.act _ rfl

theorem eraseSocket_beside {k : UInt16} (abort : Bool) (hne : k ≠ id) :
    Beside id s (s.eraseSocket k abort).1 := by
  have h := ((Beside.refl id s).stopWorker hne).dropPendingConnect k
  unfold eraseSocket
  simp only
  split
  · exact h
  · have hclosed : Beside id s
        { (s.stopWorker k).dropPendingConnect k with
          sockets := ((s.stopWorker k).dropPendingConnect k).sockets.erase k } :=
      h.trans ⟨rfl, fun hp => hp, rfl⟩
    exact hclosed.act _ (by split <;> rfl)

theorem shutdownSocket_beside (dat : List UInt8) : Beside id s (s.shutdownSocket a dat).1 := by
  have h := Beside.refl id s
  unfold shutdownSocket
  split
  · exact h
  split
  · exact h
  split
  · exact h
  · exact (h.dropPendingConnect _).act _ rfl

theorem receiveAndForward_beside {dat : List UInt8} (serviceId : UInt16) (peer : Endpoint)
    (udp : Bool) (hne : ∀ req, parseReceiveAndForward dat = some req → req.socketId ≠ id) :
    Beside id s (s.receiveAndForward a dat serviceId peer udp).1 := by
  have h := Beside.refl id s
  unfold receiveAndForward
  split
  · exact h
  next req hreq =>
  have hother := hne req hreq
  split
  · exact h
  simp only
  split
  · exact h.insertPending hother _ s.reactor
  · refine Beside.armEventWatch (.act (.stopWorker (.act (.logged (h.act _ rfl) _ ?_) _ rfl) hother) _ rfl)
      hother _
    intro act hact
    rw [List.eq_of_mem_replicate hact]
    rfl

theorem perform_beside (hpending : s.pendingConnects[id]? = none) {req : Request}
    (hp : req.primitive ≠ .other) (hok : req.takes a id = false) :
    Beside id s (s.perform a req req.primitive).1 := by
  unfold Request.takes at hok
  cases hprim : req.primitive with
  | endTest => simp [hprim] at hok
  | createAndBind tcp => exact createAndBind_beside req.dat tcp
  | connect =>
    refine connectTcp_beside _ _ fun r hr hstart heq => ?_
    simp [hprim, hr, heq, hstart] at hok
  | listenAndAccept =>
    refine listenAndAcceptTcp_beside _ _ fun r hr hlisten heq => ?_
    simp [hprim, hr, heq, hlisten] at hok
  | sendDataTcp => exact sendDataTcp_beside hpending _
  | closeSocket =>
    simp only [perform, noDat, closeSocket]
    cases hparse : parseCloseSocket req.dat with
    | none => exact .refl id s
    | some close =>
      refine eraseSocket_beside close.abort fun heq => ?_
      simp [hprim, hparse, heq] at hok
  | shutdown => exact shutdownSocket_beside _
  | receiveAndForward udp =>
    refine receiveAndForward_beside _ _ udp fun r hr heq => ?_
    simp [hprim, hr, heq] at hok
  | other => exact absurd hprim hp

/-! ## Workers and connects -/

theorem serveOne_beside {k : UInt16} (w : EventWatch) (hne : k ≠ id) :
    Beside id s (s.serveOne a w k).1 := by
  have h := Beside.refl id s
  unfold serveOne
  cases w.kind with
  | kAccept =>
    simp only [acceptOne]
    split
    · exact h
    split
    · exact h.act _ rfl
    · exact ((h.act _ rfl).register _).emitEvent hne _ _ _ _ _ _
  | kRecvTcp =>
    simp only [recvForwardTcpOne]
    split
    · exact h
    split
    · exact (h.act _ rfl).emitEvent hne _ _ _ _ _ _
    split
    · exact h.act _ rfl
    · exact h.act _ rfl
    · exact (h.act _ rfl).emitEvent hne _ _ _ _ _ _
  | kRecvUdp =>
    simp only [recvForwardUdpOne]
    split
    · exact h
    split
    · exact h.act _ rfl
    · exact (h.act _ rfl).emitEvent hne _ _ _ _ _ _

theorem onWorkerReadable_beside {k : UInt16} (hne : k ≠ id) :
    Beside id s (s.onWorkerReadable a k) := by
  unfold onWorkerReadable
  split
  · exact .refl id s
  next w _ =>
  have h := serveOne_beside (s := s) (a := a) w hne
  simp only
  split
  · exact h.trans ⟨(TreeTable.getElem?_insert k id _).trans (if_neg hne.symm), fun hp => hp, rfl⟩
  · exact h.trans ⟨(TreeTable.getElem?_erase k id).trans (if_neg hne.symm), fun hp => hp, rfl⟩

theorem finishConnect_beside (hpending : s.pendingConnects[id]? = none) (k : UInt16)
    (stop : ConnectProgress) : Beside id s (s.finishConnect k stop) := by
  unfold finishConnect
  split
  · exact .refl id s
  next p hp =>
  have hne : k ≠ id := by
    rintro rfl
    rw [hpending] at hp
    nomatch hp
  have hclosed : Beside id s (s.closePending k p) :=
    ⟨rfl, fun hp => (TreeTable.getElem?_erase k id).trans ((if_neg hne.symm).trans hp), rfl⟩
  simp only [issueSends_eq]
  split
  · have hmode : Beside id s (if p.forward.isNone then
        (s.closePending k p).act (.setNonBlocking p.fd false) else s.closePending k p) := by
      split
      · exact hclosed.act _ rfl
      · exact hclosed
    have hsent := hmode.logged (p.sends.map fun send => Action.send k p.fd send.payload send.urgent) (by
        intro act hact
        obtain ⟨send, -, rfl⟩ := List.mem_map.mp hact
        rfl)
    split
    · exact hsent
    · exact hsent.armEventWatch hne _
  · have hfailed := (hclosed.act (.setNonBlocking p.fd false) rfl).emitEvent hne p.serviceId
      kGidTcp kPidConnect [] p.peer (connectRid stop)
    split
    · exact hfailed
    · exact hfailed.emitEvent hne _ _ _ _ _ _

theorem onConnectWritable_beside (hpending : s.pendingConnects[id]? = none) (k : UInt16) :
    Beside id s (s.onConnectWritable a k) := by
  unfold onConnectWritable
  split
  · exact .refl id s
  next p _ =>
  have hasked := (Beside.refl id s).act (.connectProgress p.fd) rfl
  simp only
  split
  · exact hasked.trans (finishConnect_beside (hasked.pending hpending) k _)
  · exact hasked

theorem reportFailedConnect_beside (hpending : s.pendingConnects[id]? = none) (k : UInt16) :
    Beside id s (s.reportFailedConnect k) := by
  unfold reportFailedConnect
  split
  · exact .refl id s
  next p hp =>
  have hne : k ≠ id := by
    rintro rfl
    rw [hpending] at hp
    nomatch hp
  have hcleared := (Beside.refl id s).insertPending hne { p with report := kNoTimer } s.reactor
  exact hcleared.trans (finishConnect_beside (hcleared.pending hpending) k _)

theorem entered_beside (id : UInt16) (i : Input) : Beside id s (s.entered i) := by
  unfold entered
  cases i.trigger with
  | watch n => exact .refl id s
  | timer n => exact ⟨rfl, fun hp => hp, rfl⟩

/-- **A step beside the socket** leaves its record and its Events alone. -/
theorem step_beside (hpending : s.pendingConnects[id]? = none) {i : Input} (hok : Apart id s i) :
    Beside id s (s.step i) := by
  have hentered := entered_beside (s := s) id i
  have hread := hentered.act (.recvFromV4 s.fd) rfl
  cases hreq : s.request i with
  | some req =>
    rw [step_of_request hreq, serve]
    refine Beside.act ?_ _ rfl
    rcases dispatch_spec ((s.entered i).act (.recvFromV4 s.fd)) i.answers req with
      ⟨-, acts, hplain, hdone⟩ | ⟨hne, hdone⟩
    · rw [hdone]
      refine hread.logged acts fun act hact => ?_
      have hplain' := hplain act hact
      cases act <;> first | rfl | exact hplain'.elim
    · rw [hdone]
      exact hread.trans (perform_beside (hread.pending hpending) hne (hok.request req hreq))
  | none =>
    rcases step_of_no_request hreq with ⟨-, hstep⟩ | ⟨-, hquiet⟩ | ⟨k, hfires, hstep⟩ |
      ⟨k, -, hstep⟩ | ⟨k, -, hstep⟩
    · rw [hstep]
      exact .refl id s
    · obtain ⟨acts, hplain, hstep⟩ := hquiet
      rw [hstep]
      refine hentered.logged acts fun act hact => ?_
      have hplain' := hplain act hact
      cases act <;> first | rfl | exact hplain'.elim
    · rw [hstep]
      exact hentered.trans (onWorkerReadable_beside fun heq => hok.worker (heq ▸ hfires))
    · rw [hstep]
      exact hentered.trans (onConnectWritable_beside (hentered.pending hpending) k)
    · rw [hstep]
      exact hentered.trans (reportFailedConnect_beside (hentered.pending hpending) k)

end ProtocolServer

end Tc8Harness.Testability
