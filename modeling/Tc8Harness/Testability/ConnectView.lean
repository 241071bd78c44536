import Tc8Harness.Lib.TreeTable
import Tc8Harness.Testability.Requests

/-!
# What is seen of a CONNECT

A tester sees of a CONNECT whose attempt is still open when it is answered the CONNECT Events and the
sends of its socket. `view` reads them off the calls the server makes of the backend, with the attempt
as it stands; the lemmas here say what each handler does to it.
-/

namespace Tc8Harness.Testability

open Someip

/-! ## What is seen of a socket -/

/-- The Result ID of a CONNECT Event of the socket. -/
def Action.connectEvent (id : UInt16) : Action → Option UInt8
  | .event socket header _ _ =>
    if socket = id ∧ header.methodId = methodId kGidTcp kPidConnect true then some header.rid else none
  | _ => none

/-- A send on the socket, with the descriptor it is made on. -/
def Action.sendOn (id : UInt16) : Action → Option (Int × QueuedSend)
  | .send socket fd payload urgent => if socket = id then some (fd, ⟨payload, urgent⟩) else none
  | _ => none

/-- Neither of them. -/
def Action.Silent (id : UInt16) (action : Action) : Prop :=
  action.connectEvent id = none ∧ action.sendOn id = none

theorem Action.Plain.silent {action : Action} (h : action.Plain) (id : UInt16) : action.Silent id := by
  cases action <;> first | exact ⟨rfl, rfl⟩ | exact absurd h not_false

/-- An attempt that is open: its descriptor, how it ended if the call said so, and what is queued. -/
structure Attempt where
  fd : Int
  ended : ConnectProgress
  sends : List QueuedSend
  deriving DecidableEq, Repr

structure View where
  attempt : Option Attempt
  events : List UInt8
  sends : List (Int × QueuedSend)
  deriving DecidableEq, Repr

namespace ProtocolServer

variable {s s' : ProtocolServer} {a : Answers} {id : UInt16}

def attempt (s : ProtocolServer) (id : UInt16) : Option Attempt :=
  s.pendingConnects[id]?.map fun p => ⟨p.fd, p.ended, p.sends⟩

/-- The attempt of a socket, and the CONNECT Events and sends it has had so far. -/
def view (s : ProtocolServer) (id : UInt16) : View :=
  ⟨s.attempt id, s.log.filterMap (Action.connectEvent id), s.log.filterMap (Action.sendOn id)⟩

/-! ## Calls and records that are not the attempt's -/

theorem view_logged {acts : List Action} (h : ∀ act ∈ acts, act.Silent id) :
    ({ s with log := s.log ++ acts } : ProtocolServer).view id = s.view id := by
  have hevents : acts.filterMap (Action.connectEvent id) = [] :=
    List.filterMap_eq_nil_iff.mpr fun act hmem => (h act hmem).1
  have hsends : acts.filterMap (Action.sendOn id) = [] :=
    List.filterMap_eq_nil_iff.mpr fun act hmem => (h act hmem).2
  simp only [view, List.filterMap_append, hevents, hsends, List.append_nil]
  rfl

theorem view_act {action : Action} (h : action.Silent id) : (s.act action).view id = s.view id :=
  view_logged (by simpa using h)

theorem Quiet.view_eq (h : Quiet s s') (id : UInt16) : s'.view id = s.view id := by
  obtain ⟨acts, hplain, rfl⟩ := h
  exact view_logged fun act hmem => (hplain act hmem).silent id

@[simp] theorem view_stopWorker (id' : UInt16) : (s.stopWorker id').view id = s.view id := by
  unfold stopWorker
  split <;> rfl

@[simp] theorem view_armEventWatch (id' : UInt16) (w : EventWatch) :
    (s.armEventWatch id' w).view id = s.view id := rfl

@[simp] theorem view_registerSocket (fd : Int) : (s.registerSocket fd).1.view id = s.view id := rfl

@[simp] theorem view_entered (i : Input) : (s.entered i).view id = s.view id := by
  unfold entered
  cases i.trigger <;> rfl

/-- Any Event but a CONNECT Event. -/
theorem view_emitEvent {pid : UInt8} (hpid : pid ≠ kPidConnect) (socket serviceId : UInt16)
    (gid : UInt8) (dat : List UInt8) (peer : Endpoint) (rid : UInt8) :
    (s.emitEvent socket serviceId gid pid dat peer rid).view id = s.view id := by
  refine view_act ⟨if_neg ?_, rfl⟩
  rintro ⟨-, hmethod⟩
  have hsame := congrArg pidOf hmethod
  simp only [pidOf_methodId] at hsame
  exact hpid hsame

theorem view_endForward (socket : UInt16) (w : EventWatch) (rid : UInt8) :
    (s.endForward socket w rid).view id = s.view id := view_emitEvent (by decide) ..

/-! ## Attempts opened, dropped and ended -/

/-- The view of a server with another table of pending connects. -/
theorem view_withPending {reactor : Reactor Handler} {pending : Std.TreeMap UInt16 PendingConnect}
    {id' : UInt16} {q : Option PendingConnect}
    (h : pending[id]? = if id = id' then q else s.pendingConnects[id]?) :
    ({ s with reactor, pendingConnects := pending } : ProtocolServer).view id =
      if id = id' then { s.view id with attempt := q.map fun p => ⟨p.fd, p.ended, p.sends⟩ }
      else s.view id := by
  simp only [view, attempt, h]
  split <;> rfl

theorem view_dropPendingConnect (id' : UInt16) :
    (s.dropPendingConnect id').view id =
      if id = id' then { s.view id with attempt := none } else s.view id := by
  unfold dropPendingConnect
  split
  · next hnone =>
    split
    · next heq =>
      subst heq
      simp only [view, attempt, hnone, Option.map_none]
    · rfl
  · exact view_withPending (TreeTable.getElem?_erase id' id)

theorem view_dropAllPendingConnects :
    s.dropAllPendingConnects.view id = { s.view id with attempt := none } := by
  have hfold : ∀ ids : List UInt16, (ids.foldl dropPendingConnect s).view id =
      if id ∈ ids then { s.view id with attempt := none } else s.view id := by
    intro ids
    induction ids generalizing s with
    | nil => rfl
    | cons id' ids ih =>
      rw [List.foldl_cons, ih, view_dropPendingConnect]
      by_cases hmem : id ∈ ids <;> by_cases heq : id = id' <;> simp [hmem, heq]
  rw [dropAllPendingConnects, hfold]
  split
  · rfl
  · next hmem =>
    rw [Std.TreeMap.mem_keys] at hmem
    simp only [view, attempt, Std.TreeMap.getElem?_eq_none hmem, Option.map_none]

theorem view_stopAllWorkers : s.stopAllWorkers.view id = { s.view id with attempt := none } :=
  view_dropAllPendingConnects

theorem view_closeAllSockets : s.closeAllSockets.view id = s.view id := by
  have hview : ({ s with log := s.closeAllSockets.log } : ProtocolServer).view id = s.view id := by
    refine view_logged fun act hmem => ?_
    obtain ⟨kv, -, rfl⟩ := List.mem_map.mp hmem
    exact ⟨rfl, rfl⟩
  exact hview

/-- CLOSE_SOCKET of the socket drops its attempt, whatever else it finds. -/
theorem view_eraseSocket (id' : UInt16) (abort : Bool) :
    (s.eraseSocket id' abort).1.view id =
      if id = id' then { s.view id with attempt := none } else s.view id := by
  have hdropped : ((s.stopWorker id').dropPendingConnect id').view id =
      if id = id' then { s.view id with attempt := none } else s.view id := by
    rw [view_dropPendingConnect, view_stopWorker]
  unfold eraseSocket
  simp only
  split
  · exact hdropped
  · refine Eq.trans (view_act ?_) hdropped
    split <;> exact ⟨rfl, rfl⟩

theorem view_openPending (req : ConnectReq) (fd : Int) (serviceId : UInt16) (peer : Endpoint) :
    (s.openPending a req fd serviceId peer).view id =
      if id = req.socketId then { s.view id with attempt := some ⟨fd, a.connectStartV4, []⟩ }
      else s.view id := by
  have hstopped : (s.stopWorker req.socketId).view id = s.view id := view_stopWorker _
  unfold openPending
  simp only
  split
  · next hstart =>
    rw [view_withPending (TreeTable.getElem?_insert req.socketId id _), hstopped, hstart]
    rfl
  · rw [view_withPending (TreeTable.getElem?_insert req.socketId id _), hstopped]
    rfl

theorem view_settleMode (id' : UInt16) (fd : Int) : (s.settleMode id' fd).view id = s.view id := by
  unfold settleMode
  split
  · rfl
  · exact view_act ⟨rfl, rfl⟩

/-- The sends a queue becomes. -/
def issued (fd : Int) (sends : List QueuedSend) : List (Int × QueuedSend) := sends.map fun send => (fd, send)

theorem view_issueSends (id' : UInt16) (fd : Int) (sends : List QueuedSend) :
    (sends.foldl (fun s send => s.issueSend id' fd send) s).view id =
      if id = id' then { s.view id with sends := (s.view id).sends ++ issued fd sends }
      else s.view id := by
  induction sends generalizing s with
  | nil =>
    split
    · simp [issued]
    · rfl
  | cons send sends ih =>
    have hone : (s.issueSend id' fd send).view id =
        if id = id' then { s.view id with sends := (s.view id).sends ++ [(fd, send)] }
        else s.view id := by
      by_cases heq : id = id'
      · subst heq
        simp [view, issueSend, act, Action.connectEvent, Action.sendOn, attempt]
      · rw [if_neg heq]
        exact view_act ⟨rfl, if_neg (Ne.symm heq)⟩
    rw [List.foldl_cons, ih, hone]
    split
    · simp [issued]
    · rfl

/-- The attempt ends by itself: established, its queue is sent; failed, one CONNECT Event is sent. -/
theorem view_finishConnect {id' : UInt16} {p : PendingConnect} (stop : ConnectProgress)
    (hp : s.pendingConnects[id']? = some p) :
    (s.finishConnect id' stop).view id =
      if id = id' then
        if stop = .kEstablished then
          ⟨none, (s.view id).events, (s.view id).sends ++ issued p.fd p.sends⟩
        else ⟨none, (s.view id).events ++ [connectRid stop], (s.view id).sends⟩
      else s.view id := by
  have hclosed : (s.closePending id' p).view id =
      if id = id' then { s.view id with attempt := none } else s.view id :=
    view_withPending (TreeTable.getElem?_erase id' id)
  unfold finishConnect
  simp only [hp]
  by_cases hstop : stop = .kEstablished
  · have hmode : (if p.forward.isNone then (s.closePending id' p).act (.setNonBlocking p.fd false)
        else s.closePending id' p).view id = (s.closePending id' p).view id := by
      split
      · exact view_act ⟨rfl, rfl⟩
      · rfl
    simp only [if_pos hstop]
    generalize (if p.forward.isNone then (s.closePending id' p).act (.setNonBlocking p.fd false)
      else s.closePending id' p) = settled at hmode ⊢
    have hsent : (p.sends.foldl (fun s send => s.issueSend id' p.fd send) settled).view id = _ :=
      view_issueSends id' p.fd p.sends
    rw [hmode, hclosed] at hsent
    generalize p.sends.foldl (fun (s : ProtocolServer) send => s.issueSend id' p.fd send) _ = sent
      at hsent ⊢
    have hview : sent.view id =
        if id = id' then ⟨none, (s.view id).events, (s.view id).sends ++ issued p.fd p.sends⟩
        else s.view id := by
      rw [hsent]
      by_cases heq : id = id'
      · simp only [if_pos heq]
      · simp only [if_neg heq]
    split <;> exact hview
  · have hevent : (((s.closePending id' p).act (.setNonBlocking p.fd false)).emitEvent id'
        p.serviceId kGidTcp kPidConnect [] p.peer (connectRid stop)).view id =
        if id = id' then ⟨none, (s.view id).events ++ [connectRid stop], (s.view id).sends⟩
        else s.view id := by
      by_cases heq : id = id'
      · subst heq
        rw [if_pos rfl] at hclosed ⊢
        simp only [view, emitEvent, act, List.filterMap_append, closePending, attempt] at hclosed ⊢
        obtain ⟨hattempt, -, -⟩ := View.mk.inj hclosed
        rw [hattempt]
        simp [Action.connectEvent, Action.sendOn]
      · rw [if_neg heq] at hclosed ⊢
        refine Eq.trans (view_act ⟨if_neg fun h => heq h.1.symm, rfl⟩) ?_
        exact (view_act ⟨rfl, rfl⟩).trans hclosed
    simp only [if_neg hstop]
    split
    · exact hevent
    · exact (view_endForward ..).trans hevent

/-! ## Handlers -/

theorem view_createAndBind (dat : List UInt8) (tcp : Bool) :
    (s.createAndBind a dat tcp).1.view id = s.view id := by
  unfold createAndBind
  split
  · rfl
  next req _ =>
  have hcreated : (s.act (if tcp then .createTcp a.create else .createUdp a.create)).view id =
      s.view id := view_act (by split <;> exact ⟨rfl, rfl⟩)
  have hbound : ∀ (t : ProtocolServer) (addr : UInt32) (port : UInt16), (if req.doBind = true then
      (t.act (.setReuseAddr a.create)).act (.bindV4 a.create addr port) else t).view id = t.view id := by
    intro t addr port
    split
    · exact (view_act (by exact ⟨rfl, rfl⟩)).trans (view_act (by exact ⟨rfl, rfl⟩))
    · rfl
  simp only
  split
  · exact hcreated
  split
  · exact (view_act (by exact ⟨rfl, rfl⟩)).trans ((hbound ..).trans hcreated)
  · exact (hbound ..).trans hcreated

theorem view_listenAndAcceptTcp (dat : List UInt8) (serviceId : UInt16) (peer : Endpoint) :
    (s.listenAndAcceptTcp a dat serviceId peer).1.view id = s.view id := by
  unfold listenAndAcceptTcp
  split
  · rfl
  simp only
  split
  · rfl
  split
  · exact view_act ⟨rfl, rfl⟩
  · rw [view_armEventWatch]
    exact .trans (view_act (by exact ⟨rfl, rfl⟩))
      (.trans (view_stopWorker _) (view_act (by exact ⟨rfl, rfl⟩)))

/-- A forward queued on an attempt is no part of what is seen of it. -/
theorem view_receiveAndForward (dat : List UInt8) (serviceId : UInt16) (peer : Endpoint) (udp : Bool) :
    (s.receiveAndForward a dat serviceId peer udp).1.view id = s.view id := by
  unfold receiveAndForward
  split
  · rfl
  next req _ =>
  split
  · rfl
  simp only
  split
  · next p hp =>
    refine (view_withPending (TreeTable.getElem?_insert req.socketId id _)).trans ?_
    split
    · next heq =>
      subst heq
      simp only [view, attempt, hp, Option.map_some]
    · rfl
  · rw [view_armEventWatch]
    refine .trans (view_act (by exact ⟨rfl, rfl⟩)) (.trans (view_stopWorker _) ?_)
    refine .trans (view_act (by exact ⟨rfl, rfl⟩)) ?_
    refine .trans (view_logged ?_) (view_act (by exact ⟨rfl, rfl⟩))
    intro act hmem
    rw [List.eq_of_mem_replicate hmem]
    exact ⟨rfl, rfl⟩

theorem view_serveOne (w : EventWatch) (id' : UInt16) : (s.serveOne a w id').1.view id = s.view id := by
  unfold serveOne
  cases w.kind with
  | kAccept =>
    simp only [acceptOne]
    split
    · rfl
    split
    · exact view_act ⟨rfl, rfl⟩
    · refine (view_emitEvent (by decide) ..).trans ?_
      rw [view_registerSocket]
      exact view_act ⟨rfl, rfl⟩
  | kRecvTcp =>
    simp only [recvForwardTcpOne]
    split
    · rfl
    split
    · exact (view_endForward ..).trans (view_act (by exact ⟨rfl, rfl⟩))
    split
    · exact view_act ⟨rfl, rfl⟩
    · exact view_act ⟨rfl, rfl⟩
    · exact (view_emitEvent (by decide) ..).trans (view_act (by exact ⟨rfl, rfl⟩))
  | kRecvUdp =>
    simp only [recvForwardUdpOne]
    split
    · rfl
    split
    · exact view_act ⟨rfl, rfl⟩
    · exact (view_emitEvent (by decide) ..).trans (view_act (by exact ⟨rfl, rfl⟩))

theorem view_onWorkerReadable (id' : UInt16) : (s.onWorkerReadable a id').view id = s.view id := by
  unfold onWorkerReadable
  split
  · rfl
  next w _ =>
  simp only
  split <;> exact view_serveOne w id'

/-- A CONNECT changes nothing, or opens an attempt for its socket and is answered E_OK. -/
theorem connectTcp_cases (dat : List UInt8) (serviceId : UInt16) (peer : Endpoint) (id : UInt16) :
    (s.connectTcp a dat serviceId peer).1.view id = s.view id ∨
    (∃ req fd, parseConnectTcp dat = some req ∧ req.socketId = id ∧ s.attempt id = none ∧
      s.sockets[id]? = some fd ∧ a.connectStartV4 ≠ .kEstablished ∧
      (s.connectTcp a dat serviceId peer).2 = kRidEOk ∧
      (s.connectTcp a dat serviceId peer).1.view id =
        { s.view id with attempt := some ⟨fd, a.connectStartV4, []⟩ }) := by
  unfold connectTcp
  split
  · exact .inl rfl
  next req hreq =>
  split
  · exact .inl rfl
  next fd hlive =>
  split
  · exact .inl rfl
  next hpending =>
  have hstarted : (s.act (.connectStartV4 fd req.dst)).view id = s.view id := view_act ⟨rfl, rfl⟩
  simp only
  split
  · exact .inl ((view_settleMode ..).trans hstarted)
  · exact .inl ((view_settleMode ..).trans hstarted)
  · exact .inl ((view_settleMode ..).trans hstarted)
  · next hopen _ _ =>
    simp only [view_openPending, hstarted]
    by_cases heq : id = req.socketId
    · subst heq
      have hfree : s.attempt req.socketId = none := by
        rw [attempt, Std.TreeMap.getElem?_eq_none (by rwa [Std.TreeMap.mem_iff_contains])]
        rfl
      exact .inr ⟨req, fd, hreq, rfl, hfree, hlive, hopen, trivial, if_pos rfl⟩
    · exact .inl (if_neg heq)

/-- A SEND_DATA of another socket is not seen. -/
theorem view_sendDataTcp_other {dat : List UInt8}
    (h : (parseSendDataTcp dat).map (·.socketId) ≠ some id) :
    (s.sendDataTcp a dat).1.view id = s.view id := by
  unfold sendDataTcp
  split
  · rfl
  next req hreq =>
  have hne : id ≠ req.socketId := by
    rintro rfl
    exact h (by rw [hreq]; rfl)
  split
  · rfl
  simp only
  split
  · split
    · rfl
    · exact (view_withPending (TreeTable.getElem?_insert req.socketId id _)).trans (if_neg hne)
  · exact view_act ⟨rfl, if_neg hne.symm⟩

/-- A SEND_DATA on an attempt is queued and answered E_OK, or is not and answered E_TCP_INR. -/
theorem sendDataTcp_pending {dat : List UInt8} {req : SendDataTcpReq} {fd : Int} {p : PendingConnect}
    (hreq : parseSendDataTcp dat = some req) (hlive : s.sockets[req.socketId]? = some fd)
    (hp : s.pendingConnects[req.socketId]? = some p) :
    s.sendDataTcp a dat =
      if p.queuedBytes + (sendOf req).payload.length > kMaxQueuedConnectSend then (s, kRidETcpInr)
      else
        ({ s with
            pendingConnects := s.pendingConnects.insert req.socketId
              { p with
                queuedBytes := p.queuedBytes + (sendOf req).payload.length
                sends := p.sends ++ [sendOf req] } },
          kRidEOk) := by
  simp only [sendDataTcp, hreq, lookupSocket, hlive, hp]

/-- Nothing is open and nothing reported; sends may have been added. -/
structure Idle (id : UInt16) (s s' : ProtocolServer) : Prop where
  attempt : s'.attempt id = none
  events : (s'.view id).events = (s.view id).events
  sends : (s.view id).sends <+: (s'.view id).sends

theorem Idle.of_view (h : s.attempt id = none) (hview : s'.view id = s.view id) : Idle id s s' where
  attempt := (congrArg View.attempt hview).trans h
  events := congrArg View.events hview
  sends := by rw [hview]

/-- Where no attempt is open, a SEND_DATA goes out at once. -/
theorem sendDataTcp_idle (dat : List UInt8) (h : s.attempt id = none) :
    Idle id s (s.sendDataTcp a dat).1 := by
  unfold sendDataTcp
  split
  · exact .of_view h rfl
  next req hreq =>
  split
  · exact .of_view h rfl
  simp only
  split
  · next p hp =>
    split
    · exact .of_view h rfl
    · have hne : id ≠ req.socketId := by
        rintro rfl
        rw [attempt, hp] at h
        nomatch h
      exact .of_view h
        ((view_withPending (TreeTable.getElem?_insert req.socketId id _)).trans (if_neg hne))
  · refine ⟨h, ?_, ?_⟩
    · simp [view, issueSend, act, Action.connectEvent]
    · simp [view, issueSend, act]

end ProtocolServer

end Tc8Harness.Testability
