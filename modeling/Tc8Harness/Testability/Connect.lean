import Tc8Harness.Lib.Observe
import Tc8Harness.Testability.ConnectAttempts

/-!
# CONNECT attempts over runs

A step either leaves an open attempt open and queues what it accepts, or ends it in one of three ways
(`step_open`); while no attempt is open there is nothing to report (`step_closed`). `connect_reported` is
what follows over runs: one CONNECT Event for an attempt that failed and none for any other, the queue
sent once and in order for one that established.
-/

namespace Tc8Harness.Testability

open Someip Observe

/-! ## What a step does to an attempt -/

/-- The socket a CONNECT is for. -/
def Request.connects (req : Request) : Option UInt16 :=
  if req.primitive = .connect then (parseConnectTcp req.dat).map (·.socketId) else none

/-- The parameters of a SEND_DATA on a stream socket. -/
def Request.sendsData (req : Request) : Option SendDataTcpReq :=
  if req.primitive = .sendDataTcp then parseSendDataTcp req.dat else none

/-- END_TEST, CLOSE_SOCKET of the socket, or a SHUTDOWN of it that is well formed. -/
def Request.drops (req : Request) (id : UInt16) : Bool :=
  match req.primitive with
  | .endTest => true
  | .closeSocket => (parseCloseSocket req.dat).map (·.socketId) = some id
  | .shutdown =>
    match parseShutdownSocket req.dat with
    | none => false
    | some r => r.socketId = id ∧ (shutdownHow r.typeId).isSome
  | _ => false

/-- How an attempt can end. -/
inductive Ending where
  | established
  | failed (stop : ConnectProgress)
  | dropped
  deriving DecidableEq, Repr

/-- What is seen of a socket once its attempt has ended. -/
def View.finish (u : View) (attempt : Attempt) : Ending → View
  | .established => ⟨none, u.events, u.sends ++ ProtocolServer.issued attempt.fd attempt.sends⟩
  | .failed stop => ⟨none, u.events ++ [ProtocolServer.connectRid stop], u.sends⟩
  | .dropped => { u with attempt := none }

namespace ProtocolServer

variable {s : ProtocolServer} {i : Input} {id : UInt16}

/-- The end a step makes of the socket's attempt: a request that drops it, what the backend says when
the write watch fires, or what it said at the call when the report fires. -/
def ending (s : ProtocolServer) (id : UInt16) (i : Input) : Option Ending :=
  match s.request i with
  | some req => if req.drops id then some .dropped else none
  | none =>
    match s.fires i.trigger with
    | some (.onConnectWritable id') =>
      if id' = id then
        match i.answers.connectProgress with
        | .kInProgress => none
        | .kEstablished => some .established
        | stop => some (.failed stop)
      else none
    | some (.reportFailedConnect id') =>
      if id' = id then (s.attempt id).map fun attempt => .failed attempt.ended else none
    | _ => none

/-- The SEND_DATA of the socket that the step answers with E_OK. -/
def accepted (id : UInt16) (s : ProtocolServer) (i : Input) : List QueuedSend :=
  match (s.request i).bind Request.sendsData with
  | none => []
  | some req => if req.socketId = id ∧ s.answer i = some kRidEOk then [sendOf req] else []

/-- A CONNECT of the socket is answered with E_OK and the attempt is open. -/
structure Opens (s : ProtocolServer) (i : Input) (id : UInt16) : Prop where
  connect : (s.request i).bind Request.connects = some id
  ok : s.answer i = some kRidEOk
  isOpen : (s.step i).attempt id ≠ none

theorem attempt_eq_some {v : Attempt} (h : s.attempt id = some v) :
    ∃ p, s.pendingConnects[id]? = some p ∧ v = ⟨p.fd, p.ended, p.sends⟩ := by
  obtain ⟨p, hp, rfl⟩ := Option.map_eq_some_iff.mp h
  exact ⟨p, hp, rfl⟩

theorem shutdownSocket_view {a : Answers} {dat : List UInt8} {req : ShutdownReq} {how : Nat} {fd : Int}
    (hreq : parseShutdownSocket dat = some req) (hhow : shutdownHow req.typeId = some how)
    (hlive : s.sockets[req.socketId]? = some fd) :
    (s.shutdownSocket a dat).1.view id =
      if id = req.socketId then { s.view id with attempt := none } else s.view id := by
  simp only [shutdownSocket, hreq, hhow, lookupSocket, hlive]
  exact (view_act (by exact ⟨rfl, rfl⟩)).trans (view_dropPendingConnect req.socketId)

/-- SHUTDOWN drops the attempt of its socket or is not seen. -/
theorem view_shutdownSocket {a : Answers} (h : Attempts s) {v : Attempt} (hv : s.attempt id = some v)
    (req : Request) (hprim : req.primitive = .shutdown) :
    (s.shutdownSocket a req.dat).1.view id =
      if req.drops id then { s.view id with attempt := none } else s.view id := by
  simp only [Request.drops, hprim]
  cases hreq : parseShutdownSocket req.dat with
  | none => simp [shutdownSocket, hreq]
  | some r =>
    cases hhow : shutdownHow r.typeId with
    | none => simp [shutdownSocket, hreq, hhow]
    | some how =>
      by_cases heq : r.socketId = id
      · obtain ⟨p, hp, -⟩ := attempt_eq_some hv
        obtain ⟨fd, hfd⟩ := Option.ne_none_iff_exists'.mp (h.live hp)
        rw [shutdownSocket_view hreq hhow (by rw [heq]; exact hfd)]
        simp [heq, hhow]
      · cases hlive : s.sockets[r.socketId]? with
        | none => simp [shutdownSocket, hreq, hhow, lookupSocket, hlive, heq]
        | some fd =>
          rw [shutdownSocket_view hreq hhow hlive]
          simp [heq, Ne.symm heq]

theorem view_closeSocket (req : Request) (hprim : req.primitive = .closeSocket) :
    (s.closeSocket req.dat).1.view id =
      if req.drops id then { s.view id with attempt := none } else s.view id := by
  simp only [Request.drops, hprim, closeSocket]
  cases parseCloseSocket req.dat with
  | none => simp
  | some r =>
    simp only [view_eraseSocket, Option.map_some, Option.some.injEq, decide_eq_true_eq]
    by_cases heq : r.socketId = id
    · rw [if_pos heq.symm, if_pos heq]
    · rw [if_neg (Ne.symm heq), if_neg heq]

/-- A SEND_DATA on an open attempt queues what it accepts. -/
theorem view_sendDataTcp {a : Answers} (h : Attempts s) {v : Attempt} (hv : s.attempt id = some v)
    (dat : List UInt8) :
    (s.sendDataTcp a dat).1.view id =
      { s.view id with
        attempt := some { v with
          sends := v.sends ++ match parseSendDataTcp dat with
            | none => []
            | some req =>
              if req.socketId = id ∧ (s.sendDataTcp a dat).2 = kRidEOk then [sendOf req] else [] } } := by
  obtain ⟨p, hp, rfl⟩ := attempt_eq_some hv
  have hsame : s.view id =
      { s.view id with attempt := some ⟨p.fd, p.ended, p.sends ++ []⟩ } := by
    rw [List.append_nil, ← hv]
    rfl
  cases hreq : parseSendDataTcp dat with
  | none =>
    rw [view_sendDataTcp_other (by rw [hreq]; exact nofun)]
    exact hsame
  | some req =>
    by_cases heq : req.socketId = id
    · subst heq
      obtain ⟨fd, hfd⟩ := Option.ne_none_iff_exists'.mp (h.live hp)
      rw [sendDataTcp_pending hreq hfd hp]
      split
      · simp only [show ¬ (kRidETcpInr = kRidEOk) by decide, and_false, if_false]
        exact hsame
      · simp only [and_self, if_true]
        exact (view_withPending (TreeTable.getElem?_insert req.socketId req.socketId _)).trans
          (if_pos rfl)
    · rw [view_sendDataTcp_other (by rw [hreq]; simpa using heq)]
      simp only [heq, false_and, if_false]
      exact hsame

/-- What a request other than SEND_DATA does to an open attempt. -/
theorem view_perform {a : Answers} (h : Attempts s) {v : Attempt} (hv : s.attempt id = some v)
    (req : Request) (hother : req.primitive ≠ .other) (hsend : req.primitive ≠ .sendDataTcp) :
    (s.perform a req req.primitive).1.view id =
      if req.drops id then { s.view id with attempt := none } else s.view id := by
  cases hprim : req.primitive with
  | endTest =>
    rw [perform, view_closeAllSockets, view_stopAllWorkers]
    simp [Request.drops, hprim]
  | createAndBind tcp =>
    rw [perform, respondCreateAndBind, view_createAndBind]
    simp [Request.drops, hprim]
  | connect =>
    rcases connectTcp_cases (s := s) (a := a) req.dat req.header.serviceId req.peer id with
      hview | ⟨_, _, -, -, hnone, -⟩
    · rw [perform, noDat, hview]
      simp [Request.drops, hprim]
    · cases hv.symm.trans hnone
  | listenAndAccept =>
    rw [perform, noDat, view_listenAndAcceptTcp]
    simp [Request.drops, hprim]
  | sendDataTcp => exact absurd hprim hsend
  | closeSocket => exact view_closeSocket req hprim
  | shutdown => exact view_shutdownSocket h hv req hprim
  | receiveAndForward udp =>
    rw [perform, view_receiveAndForward]
    simp [Request.drops, hprim]
  | other => exact absurd hprim hother

/-- An attempt under way is asked for when its watch fires. -/
theorem view_onConnectWritable {a : Answers} {id' : UInt16} {p : PendingConnect}
    (hp : s.pendingConnects[id']? = some p) :
    (s.onConnectWritable a id').view id =
      if a.connectProgress = .kInProgress ∨ id ≠ id' then s.view id
      else (s.view id).finish ⟨p.fd, p.ended, p.sends⟩
        (if a.connectProgress = .kEstablished then .established else .failed a.connectProgress) := by
  have hasked : (s.act (.connectProgress p.fd)).view id = s.view id := view_act ⟨rfl, rfl⟩
  unfold onConnectWritable
  simp only [hp]
  by_cases hstop : a.connectProgress = .kInProgress
  · rw [if_neg (by simpa using hstop), if_pos (.inl hstop)]
    exact hasked
  · rw [if_pos hstop, view_finishConnect (s := s.act _) a.connectProgress hp, hasked]
    by_cases heq : id = id'
    · rw [if_pos heq, if_neg (not_or.mpr ⟨hstop, not_not.mpr heq⟩)]
      split <;> rfl
    · rw [if_neg heq, if_pos (.inr heq)]

theorem view_reportFailedConnect {id' : UInt16} {p : PendingConnect}
    (hp : s.pendingConnects[id']? = some p) (hfailed : p.ended ≠ .kEstablished) :
    (s.reportFailedConnect id').view id =
      if id = id' then (s.view id).finish ⟨p.fd, p.ended, p.sends⟩ (.failed p.ended)
      else s.view id := by
  unfold reportFailedConnect
  simp only [hp]
  rw [view_finishConnect (p := { p with report := kNoTimer }) p.ended
    (by rw [TreeTable.getElem?_insert, if_pos rfl])]
  split
  · rfl
  · next hne =>
    exact (view_withPending (TreeTable.getElem?_insert id' id _)).trans (if_neg hne)

/-- **What a step does to an open attempt**: it stays open with what the step accepts queued, or it
ends; a failure it ends with is one that the backend reported. -/
theorem step_open (h : Attempts s) {v : Attempt} (hv : s.attempt id = some v) (i : Input) :
    (s.ending id i = none ∧ (s.step i).view id =
      { s.view id with attempt := some { v with sends := v.sends ++ accepted id s i } }) ∨
    (∃ e, s.ending id i = some e ∧ (s.step i).view id = (s.view id).finish v e ∧
      ∀ stop, e = .failed stop → stop ≠ .kInProgress ∧ stop ≠ .kEstablished) := by
  have hsame : s.view id = { s.view id with attempt := some { v with sends := v.sends ++ [] } } := by
    rw [List.append_nil, ← hv]
    rfl
  cases hreq : s.request i with
  | some req =>
    obtain ⟨done, hdispatch, hanswer, hstep⟩ := h.step_request hreq
    have hread : Attempts s.reading := h.act _
    have hview : s.reading.view id = s.view id := view_act ⟨rfl, rfl⟩
    rw [hstep, view_act ⟨rfl, rfl⟩]
    simp only [ending, accepted, hreq, Option.bind_some, Request.sendsData, hanswer]
    rcases hdispatch with ⟨hprim, hquiet⟩ | ⟨hne, rfl⟩
    · left
      rw [hquiet.view_eq, hview]
      simp only [Request.drops, hprim, reduceCtorEq, if_false, Bool.false_eq_true, true_and]
      exact hsame
    · by_cases hsend : req.primitive = .sendDataTcp
      · left
        simp only [Request.drops, hsend, if_true, if_false, Bool.false_eq_true, true_and, perform,
          noDat, Option.some.injEq]
        rw [view_sendDataTcp hread hv, hview]
      · rw [view_perform hread hv req hne hsend, hview, if_neg hsend]
        split
        · exact .inr ⟨.dropped, rfl, rfl, (by simp)⟩
        · exact .inl ⟨rfl, hsame⟩
  | none =>
    have hnone : accepted id s i = [] := by simp only [accepted, hreq, Option.bind_none]
    simp only [ending, hreq, hnone]
    rcases step_of_no_request hreq with ⟨hfires, hstep⟩ | ⟨hfires, hquiet⟩ | ⟨id', hfires, hstep⟩ |
      ⟨id', hfires, hstep⟩ | ⟨id', hfires, hstep⟩
    · rw [hfires, hstep]
      exact .inl ⟨rfl, hsame⟩
    · rw [hfires, hquiet.view_eq, view_entered]
      exact .inl ⟨rfl, hsame⟩
    · rw [hfires, hstep, view_onWorkerReadable, view_entered]
      exact .inl ⟨rfl, hsame⟩
    · obtain ⟨p, hp, hended⟩ := h.fires_connect hfires
      rw [hfires, hstep, h.entered_eq hfires (by simp), view_onConnectWritable hp]
      simp only
      by_cases heq : id' = id
      · subst heq
        obtain ⟨q, hq, rfl⟩ := attempt_eq_some hv
        obtain rfl := Option.some.inj (hp.symm.trans hq)
        cases hprogress : i.answers.connectProgress with
        | kInProgress => exact .inl ⟨by simp, hsame⟩
        | kEstablished => exact .inr ⟨.established, by simp, by simp, (by simp)⟩
        | _ =>
          refine .inr ⟨.failed i.answers.connectProgress, by simp [hprogress], by simp [hprogress], ?_⟩
          rintro stop ⟨⟩
          rw [hprogress]
          exact ⟨(by simp), (by simp)⟩
      · rw [if_neg heq, if_pos (Or.inr (Ne.symm heq))]
        exact .inl ⟨rfl, hsame⟩
    · obtain ⟨p, t, hp, hended, -⟩ := h.fires_report hfires
      have hp' : (s.entered i).pendingConnects[id']? = some p := by
        rw [← hp, entered]
        cases i.trigger <;> rfl
      rw [hfires, hstep, view_reportFailedConnect hp' (h.failed hp), view_entered]
      simp only
      by_cases heq : id' = id
      · subst heq
        obtain ⟨q, hq, rfl⟩ := attempt_eq_some hv
        obtain rfl := Option.some.inj (hp.symm.trans hq)
        refine .inr ⟨.failed p.ended, by rw [if_pos rfl, hv]; rfl, if_pos rfl, ?_⟩
        rintro stop ⟨⟩
        exact ⟨hended, h.failed hp⟩
      · rw [if_neg (Ne.symm heq), if_neg heq]
        exact .inl ⟨rfl, hsame⟩

/-- A request drops no attempt where none is open. -/
theorem Idle.of_drop {s' : ProtocolServer} (h : s.attempt id = none)
    (hview : s'.view id = s.view id ∨ s'.view id = { s.view id with attempt := none }) :
    Idle id s s' := by
  refine .of_view h ?_
  rcases hview with hview | hview
  · exact hview
  · rw [hview, ← h]
    rfl

theorem shutdownSocket_idle {a : Answers} (h : s.attempt id = none) (dat : List UInt8) :
    Idle id s (s.shutdownSocket a dat).1 := by
  cases hreq : parseShutdownSocket dat with
  | none => exact .of_view h (by simp [shutdownSocket, hreq])
  | some r =>
    cases hhow : shutdownHow r.typeId with
    | none => exact .of_view h (by simp [shutdownSocket, hreq, hhow])
    | some how =>
      cases hlive : s.sockets[r.socketId]? with
      | none => exact .of_view h (by simp [shutdownSocket, hreq, hhow, lookupSocket, hlive])
      | some fd =>
        refine .of_drop h ?_
        rw [shutdownSocket_view hreq hhow hlive]
        split
        · exact .inr rfl
        · exact .inl rfl

/-- A request where no attempt is open: it opens one for its socket, or none is. -/
theorem perform_idle {a : Answers} (h : s.attempt id = none) (req : Request)
    (hother : req.primitive ≠ .other) :
    Idle id s (s.perform a req req.primitive).1 ∨
    (req.connects = some id ∧ (s.perform a req req.primitive).2.1 = kRidEOk ∧
      ∃ fd, s.sockets[id]? = some fd ∧ (s.perform a req req.primitive).1.view id =
        { s.view id with attempt := some ⟨fd, a.connectStartV4, []⟩ }) := by
  cases hprim : req.primitive with
  | endTest =>
    refine .inl (.of_drop h (.inr ?_))
    rw [perform, view_closeAllSockets, view_stopAllWorkers]
  | createAndBind tcp => exact .inl (.of_view h (view_createAndBind ..))
  | connect =>
    rcases connectTcp_cases (s := s) (a := a) req.dat req.header.serviceId req.peer id with
      hview | ⟨c, fd, hparse, hid, -, hlive, -, hok, hview⟩
    · exact .inl (.of_view h hview)
    · refine .inr ⟨?_, hok, fd, hlive, hview⟩
      rw [Request.connects, if_pos hprim, hparse, ← hid]
      rfl
  | listenAndAccept => exact .inl (.of_view h (view_listenAndAcceptTcp ..))
  | sendDataTcp => exact .inl (sendDataTcp_idle req.dat h)
  | closeSocket =>
    refine .inl (.of_drop h ?_)
    rw [show (s.perform a req .closeSocket).1 = (s.closeSocket req.dat).1 from rfl,
      view_closeSocket req hprim]
    split
    · exact .inr rfl
    · exact .inl rfl
  | shutdown => exact .inl (shutdownSocket_idle h req.dat)
  | receiveAndForward udp => exact .inl (.of_view h (view_receiveAndForward ..))
  | other => exact absurd hprim hother

/-- **Where no attempt is open** a step opens one for a CONNECT, or there is nothing to report. -/
theorem step_closed (h : Attempts s) (hv : s.attempt id = none) (i : Input) :
    Idle id s (s.step i) ∨
    (Opens s i id ∧ ∃ fd, s.sockets[id]? = some fd ∧ (s.step i).view id =
      { s.view id with attempt := some ⟨fd, i.answers.connectStartV4, []⟩ }) := by
  cases hreq : s.request i with
  | some req =>
    obtain ⟨done, hdispatch, hanswer, hstep⟩ := h.step_request hreq
    have hview : s.reading.view id = s.view id := view_act ⟨rfl, rfl⟩
    have hlast : (s.step i).view id = done.1.view id := by rw [hstep, view_act ⟨rfl, rfl⟩]
    rcases hdispatch with ⟨-, hquiet⟩ | ⟨hne, rfl⟩
    · exact .inl (.of_view hv (hlast.trans ((hquiet.view_eq id).trans hview)))
    · rcases perform_idle (s := s.reading) (a := i.answers) hv req hne with
        hidle | ⟨hconnects, hok, fd, hlive, hopened⟩
      · refine .inl ⟨(congrArg View.attempt hlast).trans hidle.attempt, ?_, ?_⟩
        · rw [hlast, hidle.events, hview]
        · rw [hlast, ← hview]
          exact hidle.sends
      · rw [hview] at hopened
        refine .inr ⟨⟨?_, by rw [hanswer, hok], ?_⟩, fd, hlive, hlast.trans hopened⟩
        · rw [hreq]
          exact hconnects
        · rw [show (s.step i).attempt id = _ from congrArg View.attempt (hlast.trans hopened)]
          exact Option.some_ne_none _
  | none =>
    refine .inl (.of_view hv ?_)
    rcases step_of_no_request hreq with ⟨-, hstep⟩ | ⟨-, hquiet⟩ | ⟨id', -, hstep⟩ |
      ⟨id', hfires, hstep⟩ | ⟨id', hfires, hstep⟩
    · rw [hstep]
    · rw [hquiet.view_eq, view_entered]
    · rw [hstep, view_onWorkerReadable, view_entered]
    · obtain ⟨p, hp, -⟩ := h.fires_connect hfires
      have hne : id ≠ id' := by
        rintro rfl
        rw [attempt, hp] at hv
        cases hv
      rw [hstep, h.entered_eq hfires (by simp), view_onConnectWritable hp, if_pos (.inr hne)]
    · obtain ⟨p, t, hp, hended, -⟩ := h.fires_report hfires
      have hp' : (s.entered i).pendingConnects[id']? = some p := by
        rw [← hp, entered]
        cases i.trigger <;> rfl
      have hne : id ≠ id' := by
        rintro rfl
        rw [attempt, hp] at hv
        cases hv
      rw [hstep, view_reportFailedConnect hp' (h.failed hp), view_entered, if_neg hne]

/-- A CONNECT on a socket whose attempt is open is not answered with E_OK. -/
theorem connectTcp_again {a : Answers} {dat : List UInt8} {req : ConnectReq} {p : PendingConnect}
    (hreq : parseConnectTcp dat = some req) (hp : s.pendingConnects[req.socketId]? = some p)
    (serviceId : UInt16) (peer : Endpoint) :
    (s.connectTcp a dat serviceId peer).2 ≠ kRidEOk := by
  have hcontains : s.pendingConnects.contains req.socketId = true := by
    rw [Std.TreeMap.contains_eq_isSome_getElem?, hp]
    rfl
  simp only [connectTcp, hreq, lookupSocket]
  cases s.sockets[req.socketId]? with
  | none =>
    show kRidEIsd ≠ kRidEOk
    decide
  | some fd =>
    simp only [hcontains, if_true]
    decide

theorem Opens.spec (h : Attempts s) (ho : Opens s i id) :
    s.attempt id = none ∧ ∃ fd, s.sockets[id]? = some fd ∧ (s.step i).view id =
      { s.view id with attempt := some ⟨fd, i.answers.connectStartV4, []⟩ } := by
  have hnone : s.attempt id = none := by
    by_contra hopen
    obtain ⟨v, hv⟩ := Option.ne_none_iff_exists'.mp hopen
    obtain ⟨p, hp, -⟩ := attempt_eq_some hv
    obtain ⟨req, hreq, hconnects⟩ := Option.bind_eq_some_iff.mp ho.connect
    unfold Request.connects at hconnects
    split at hconnects
    · next hprim =>
      obtain ⟨c, hparse, rfl⟩ := Option.map_eq_some_iff.mp hconnects
      obtain ⟨done, hdispatch, hanswer, -⟩ := h.step_request hreq
      rcases hdispatch with ⟨hother, -⟩ | ⟨-, rfl⟩
      · exact nomatch hprim.symm.trans hother
      · rw [hprim] at hanswer
        exact connectTcp_again (s := s.reading) hparse hp _ _
          (Option.some.inj (hanswer.symm.trans ho.ok))
    · nomatch hconnects
  refine ⟨hnone, ?_⟩
  rcases step_closed h hnone i with hidle | ⟨-, hview⟩
  · exact absurd hidle.attempt ho.isOpen
  · exact hview

/-! ## Runs -/

theorem Idle.trans {s₁ s₂ s₃ : ProtocolServer} (h₁ : Idle id s₁ s₂) (h₂ : Idle id s₂ s₃) :
    Idle id s₁ s₃ :=
  ⟨h₂.attempt, h₂.events.trans h₁.events, h₁.sends.trans h₂.sends⟩

/-- Until the next attempt is opened there is nothing to report. -/
theorem run_closed (h : Attempts s) (hv : s.attempt id = none) {is : List Input}
    (hopens : Along step (fun s i => ¬ Opens s i id) s is) : Idle id s (s.run is) := by
  induction is generalizing s with
  | nil => exact .of_view hv rfl
  | cons i is ih =>
    rcases step_closed h hv i with hidle | ⟨hopen, -⟩
    · exact hidle.trans (ih (step_attempts h i) hidle.attempt hopens.tail)
    · exact absurd hopen hopens.head

/-- What a run makes of an attempt: it is still open, or one of the steps ended it and nothing was
reported after. -/
def Lives (s : ProtocolServer) (id : UInt16) (v : Attempt) (is : List Input) : Prop :=
  (s.run is).view id =
      { s.view id with attempt := some { v with sends := v.sends ++ observe step (accepted id) s is } } ∨
  ∃ mid j after e, is = mid ++ j :: after ∧
    (s.run mid).view id =
      { s.view id with attempt := some { v with sends := v.sends ++ observe step (accepted id) s mid } } ∧
    (s.run mid).ending id j = some e ∧
    (∀ stop, e = .failed stop → stop ≠ .kInProgress ∧ stop ≠ .kEstablished) ∧
    ((s.run mid).step j).view id =
      (s.view id).finish { v with sends := v.sends ++ observe step (accepted id) s mid } e ∧
    Idle id ((s.run mid).step j) (s.run is)

theorem attempt_finish {u : View} {v : Attempt} (e : Ending) : (u.finish v e).attempt = none := by
  cases e <;> rfl

theorem finish_withAttempt {u : View} {v w : Attempt} (e : Ending) :
    ({ u with attempt := some w } : View).finish v e = u.finish v e := by
  cases e <;> rfl

/-- The induction is on the steps that leave the attempt open; the first that does not ends it. -/
theorem run_open (h : Attempts s) {v : Attempt} (hv : s.attempt id = some v) {is : List Input}
    (hopens : Along step (fun s i => ¬ Opens s i id) s is) : Lives s id v is := by
  induction is generalizing s v with
  | nil =>
    left
    rw [observe, List.append_nil, ← hv]
    rfl
  | cons i is ih =>
    rcases step_open h hv i with ⟨-, hview⟩ | ⟨e, hending, hview, hfailed⟩
    · have hv' : (s.step i).attempt id = some { v with sends := v.sends ++ accepted id s i } :=
        congrArg View.attempt hview
      rcases ih (step_attempts h i) hv' hopens.tail with hstays |
        ⟨mid, j, after, e, his, hmid, hending, hfailed, hend, hidle⟩
      · left
        rw [hview] at hstays
        rw [observe, ← List.append_assoc]
        exact hstays
      · right
        rw [hview] at hmid hend
        rw [finish_withAttempt] at hend
        refine ⟨i :: mid, j, after, e, by rw [his]; rfl, ?_, hending, hfailed, ?_, hidle⟩
        · rw [observe, ← List.append_assoc]
          exact hmid
        · rw [observe, ← List.append_assoc]
          exact hend
    · right
      have hclosed : (s.step i).attempt id = none :=
        (congrArg View.attempt hview).trans (attempt_finish e)
      refine ⟨[], i, is, e, rfl, ?_, hending, hfailed, ?_,
        run_closed (step_attempts h i) hclosed hopens.tail⟩
      · rw [observe, List.append_nil, ← hv]
        rfl
      · rw [observe, List.append_nil]
        exact hview

/-- After a request that drops attempts of the socket nothing is reported. -/
theorem run_after_drop (h : Attempts s) {mid : List Input} {j : Input} {after : List Input}
    (hopens : Along step (fun s i => ¬ Opens s i id) s (mid ++ j :: after)) {req : Request}
    (hreq : (s.run mid).request j = some req) (hdrops : req.drops id = true) :
    Idle id ((s.run mid).step j) (s.run (mid ++ j :: after)) := by
  induction mid generalizing s with
  | nil =>
    refine run_closed (step_attempts h j) ?_ hopens.tail
    have hending : s.ending id j = some .dropped := by
      rw [ending, show s.request j = some req from hreq]
      exact if_pos hdrops
    cases hv : s.attempt id with
    | some v =>
      rcases step_open h hv j with ⟨hnone, -⟩ | ⟨e, -, hview, -⟩
      · exact nomatch hnone.symm.trans hending
      · exact (congrArg View.attempt hview).trans (attempt_finish e)
    | none =>
      rcases step_closed h hv j with hidle | ⟨hopen, -⟩
      · exact hidle.attempt
      · exact absurd hopen hopens.head
  | cons i mid ih => exact ih (step_attempts h i) hopens.tail hreq

/-- What holds of the queues of a state: no queue exceeds the limit, and a SEND_DATA that would take
one over it is answered E_TCP_INR and leaves every attempt as it was. -/
structure QueueKept (s : ProtocolServer) : Prop where
  bound : ∀ (id : UInt16) (v : Attempt), s.attempt id = some v → queueBytes v.sends ≤ 65535
  refused : ∀ (i : Input) (id : UInt16) (v : Attempt) (req : SendDataTcpReq),
    s.attempt id = some v → (s.request i).bind Request.sendsData = some req → req.socketId = id →
    65535 < queueBytes v.sends + (sendOf req).payload.length →
    s.answer i = some kRidETcpInr ∧ (s.step i).pendingConnects = s.pendingConnects

theorem Attempts.queueKept (h : Attempts s) : QueueKept s where
  bound := by
    intro id v hv
    obtain ⟨p, hp, rfl⟩ := attempt_eq_some hv
    obtain ⟨hbytes, hbound⟩ := h.bytes hp
    rw [← hbytes]
    exact hbound
  refused := by
    rintro i id v send hv hsend rfl hover
    obtain ⟨p, hp, rfl⟩ := attempt_eq_some hv
    obtain ⟨req, hreq, hsends⟩ := Option.bind_eq_some_iff.mp hsend
    unfold Request.sendsData at hsends
    split at hsends
    · next hprim =>
      obtain ⟨fd, hfd⟩ := Option.ne_none_iff_exists'.mp (h.live hp)
      obtain ⟨done, hdispatch, hanswer, hstep⟩ := h.step_request hreq
      rcases hdispatch with ⟨hother, -⟩ | ⟨-, rfl⟩
      · cases hprim.symm.trans hother
      · have hperform := sendDataTcp_pending (s := s.reading) (a := i.answers) hsends hfd hp
        rw [if_pos (by rw [(h.bytes hp).1]; exact hover)] at hperform
        rw [hprim] at hanswer hstep
        simp only [perform, noDat, hperform] at hanswer hstep
        exact ⟨hanswer, by rw [hstep]; rfl⟩
    · cases hsends

/-- What a CONNECT that opened an attempt in the step `i` comes to over the inputs that follow. The
Response is the last call of its step, before which no CONNECT Event is sent; the attempt has its life;
and no Event follows CLOSE_SOCKET, SHUTDOWN or END_TEST of the socket. -/
structure Reported (s : ProtocolServer) (i : Input) (id : UInt16) (is : List Input) : Prop where
  response : ∃ log header dat peer, (s.step i).log = log ++ [.response header dat peer] ∧
    header.rid = kRidEOk
  life : ∃ conn, s.sockets[id]? = some conn ∧
    (s.step i).view id = { s.view id with attempt := some ⟨conn, i.answers.connectStartV4, []⟩ } ∧
    Lives (s.step i) id ⟨conn, i.answers.connectStartV4, []⟩ is
  afterDrop : ∀ mid j after req, is = mid ++ j :: after → ((s.step i).run mid).request j = some req →
    req.drops id = true → Idle id (((s.step i).run mid).step j) ((s.step i).run is)

/-- **CONNECT is reported once and its sends wait for it.** Over every run, from a CONNECT answered
E_OK with the attempt open until the next such CONNECT of the socket: the attempt is open with the sends
accepted so far queued, or it has ended. An established one has had exactly these sent, in order; a failed
one has had one CONNECT Event, and one that was dropped none. In every state the queues are within 65535
bytes. -/
theorem connect_reported (fd : Int) (before : List Input) (i : Input) (id : UInt16) (is : List Input)
    (hopen : Opens ((start fd).run before) i id)
    (hnext : Along step (fun s j => ¬ Opens s j id) (((start fd).run before).step i) is) :
    Reported ((start fd).run before) i id is ∧ ∀ js, QueueKept ((start fd).run js) := by
  have h := run_attempts (start_attempts fd) before
  refine ⟨?_, fun js => (run_attempts (start_attempts fd) js).queueKept⟩
  generalize (start fd).run before = s at *
  exact
    { response := by
        obtain ⟨req, hreq, -⟩ := Option.bind_eq_some_iff.mp hopen.connect
        obtain ⟨done, -, hanswer, hstep⟩ := h.step_request hreq
        exact ⟨done.1.log, _, _, _, by rw [hstep]; rfl, Option.some.inj (hanswer.symm.trans hopen.ok)⟩
      life := by
        obtain ⟨-, conn, hlive, hview⟩ := hopen.spec h
        exact ⟨conn, hlive, hview, run_open (step_attempts h i) (congrArg View.attempt hview) hnext⟩
      afterDrop := by
        rintro mid j after req rfl hreq hdrops
        exact run_after_drop (step_attempts h i) hnext hreq hdrops }

instance (s : ProtocolServer) (i : Input) (id : UInt16) : Decidable (Opens s i id) :=
  decidable_of_iff ((s.request i).bind Request.connects = some id ∧ s.answer i = some kRidEOk ∧
    (s.step i).attempt id ≠ none) ⟨fun h => ⟨h.1, h.2.1, h.2.2⟩, fun h => ⟨h.1, h.2, h.3⟩⟩

def sendInput (id : UInt16) (flags : UInt8) (data : List UInt8) : Input :=
  requestInput kGidTcp kPidSendData (appendVint8 (appendU16 (appendU16 [] id) 0 ++ [flags]) data) {}

/-- Two sends queued, the second urgent, the connect established and a third sent at once. -/
theorem connect_reported_established :
    Reported ((start 3).run [createInput 10]) (connectInput 1) 1
      [sendInput 1 0 [1, 2], sendInput 1 kSendFlagUrg [3], establishInput, sendInput 1 0 [4]] ∧
    ((((start 3).run [createInput 10]).step (connectInput 1)).run
      [sendInput 1 0 [1, 2], sendInput 1 kSendFlagUrg [3], establishInput, sendInput 1 0 [4]]).view 1 =
        ⟨none, [], [(10, ⟨[1, 2], false⟩), (10, ⟨[3], true⟩), (10, ⟨[4], false⟩)]⟩ :=
  ⟨(connect_reported 3 [createInput 10] (connectInput 1) 1 _ (by decide +kernel)
    (by decide +kernel)).1, by decide +kernel⟩

end ProtocolServer

end Tc8Harness.Testability
