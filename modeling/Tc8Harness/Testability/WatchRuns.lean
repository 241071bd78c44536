import Tc8Harness.Testability.SocketIds
import Tc8Harness.Testability.Watches

/-!
# The records over runs

Each handler keeps the server's records and the reactor together, and as long as the id counter has not
come round a registration touches no record (`Ordered`). One caller does not: a connect that establishes
with a forward queued arms the forward over an event watch that LISTEN_AND_ACCEPT may have armed
meanwhile. `consistent_iff_no_double_arm` says that this is the only way the tables come apart.
-/

namespace Tc8Harness.Testability

open Someip Observe Handles

namespace ProtocolServer

variable {s s' : ProtocolServer} {a : Answers}

/-! ## Request handlers -/

theorem settleMode_linked (h : Linked s) (id : UInt16) (fd : Int) : Linked (s.settleMode id fd) := by
  unfold settleMode
  split
  · exact h
  · exact h.act _

theorem connectTcp_linked (h : Linked s) (dat : List UInt8) (serviceId : UInt16) (peer : Endpoint) :
    Linked (s.connectTcp a dat serviceId peer).1 := by
  unfold connectTcp
  split
  · exact h
  next req hreq =>
  split
  · exact h
  next fd hlive =>
  split
  · exact h
  next hpending =>
  have hfree : s.pendingConnects[req.socketId]? = none :=
    Std.TreeMap.getElem?_eq_none (by rwa [Std.TreeMap.mem_iff_contains])
  have hstarted := h.act (.connectStartV4 fd req.dst)
  simp only
  split
  · exact settleMode_linked hstarted _ _
  · exact settleMode_linked hstarted _ _
  · exact settleMode_linked hstarted _ _
  · next hopen _ _ => exact openPending_linked hstarted serviceId peer hlive hfree hopen

/-- A worker armed where another may have been: the old one is stopped first. -/
theorem rearm_linked (h : Linked s) {id : UInt16} {w : EventWatch} (action : Action)
    (hlive : s.sockets[id]? = some w.fd) :
    Linked (((s.stopWorker id).act action).armEventWatch id w) := by
  refine armEventWatch_linked ((stopWorker_linked h id).act action) ?_ (stopWorker_gone id)
  exact (congrArg (·[id]?) (sockets_stopWorker id)).trans hlive

theorem listenAndAcceptTcp_linked (h : Linked s) (dat : List UInt8) (serviceId : UInt16)
    (peer : Endpoint) : Linked (s.listenAndAcceptTcp a dat serviceId peer).1 := by
  unfold listenAndAcceptTcp
  split
  · exact h
  simp only
  split
  · exact h
  next fd hlive =>
  split
  · exact h.act _
  · exact rearm_linked (h.act _) _ hlive

theorem sendDataTcp_linked (h : Linked s) (dat : List UInt8) : Linked (s.sendDataTcp a dat).1 := by
  unfold sendDataTcp
  split
  · exact h
  split
  · exact h
  simp only
  split
  · next p hp =>
    split
    · exact h
    · exact h.replacePending hp rfl rfl rfl rfl fun w hw => h.forwardFd (p := p) hp hw
  · exact h.act _

theorem eraseSocket_linked (h : Linked s) (id : UInt16) (abort : Bool) :
    Linked (s.eraseSocket id abort).1 := by
  have hlinked := dropPendingConnect_linked (stopWorker_linked h id) id
  unfold eraseSocket
  simp only
  split
  · exact hlinked
  · refine (hlinked.eraseSocket ?_ (dropPendingConnect_gone id)).act _
    rw [eventWatches_dropPendingConnect]
    exact stopWorker_gone id

theorem closeSocket_linked (h : Linked s) (dat : List UInt8) : Linked (s.closeSocket dat).1 := by
  unfold closeSocket
  split
  · exact h
  · exact eraseSocket_linked h _ _

theorem shutdownSocket_linked (h : Linked s) (dat : List UInt8) :
    Linked (s.shutdownSocket a dat).1 := by
  unfold shutdownSocket
  split
  · exact h
  split
  · exact h
  split
  · exact h
  · exact (dropPendingConnect_linked h _).act _

theorem receiveAndForward_linked (h : Linked s) (dat : List UInt8) (serviceId : UInt16)
    (peer : Endpoint) (udp : Bool) : Linked (s.receiveAndForward a dat serviceId peer udp).1 := by
  unfold receiveAndForward
  split
  · exact h
  split
  · exact h
  next fd hlive =>
  simp only
  split
  · next p hp =>
    refine h.replacePending hp rfl rfl rfl rfl ?_
    rintro w ⟨⟩
    exact Option.some.inj (hlive.symm.trans (h.pendingLive (p := p) hp))
  · exact rearm_linked (((h.act _).logged _).act _) _ hlive

/-! ## Registrations -/

/-- Ids are the number of the registration, as long as the counter has not come round. -/
structure Numbered (s : ProtocolServer) : Prop where
  next : s.nextSocketId.toNat = s.registered + 1
  live : ∀ {id : UInt16} {fd : Int}, s.sockets[id]? = some fd → id.toNat ≤ s.registered

theorem Numbered.free (h : Numbered s) : s.sockets[s.nextSocketId]? = none := by
  by_contra hlive
  obtain ⟨fd, hfd⟩ := Option.ne_none_iff_exists'.mp hlive
  have hle := h.live hfd
  have hnext := h.next
  omega

/-- What a handler does to the table of sockets: at most lose some, or register one more. -/
structure Kept (s s' : ProtocolServer) : Prop where
  next : s'.nextSocketId = s.nextSocketId
  registered : s'.registered = s.registered
  sockets : ∀ {id : UInt16} {fd : Int}, s'.sockets[id]? = some fd → s.sockets[id]? = some fd

theorem Kept.refl (s : ProtocolServer) : Kept s s := ⟨rfl, rfl, fun hid => hid⟩

theorem Kept.trans {s₁ s₂ s₃ : ProtocolServer} (h₁ : Kept s₁ s₂) (h₂ : Kept s₂ s₃) : Kept s₁ s₃ where
  next := h₂.next.trans h₁.next
  registered := h₂.registered.trans h₁.registered
  sockets := fun hid => h₁.sockets (h₂.sockets hid)

theorem Kept.of_table (h : s'.table = s.table) : Kept s s' where
  next := congrArg Table.nextSocketId h
  registered := congrArg Table.registered h
  sockets := by
    intro id fd hid
    rwa [show s'.sockets = s.sockets from congrArg Table.sockets h] at hid

theorem Numbered.kept (h : Numbered s) (hk : Kept s s') : Numbered s' where
  next := by rw [hk.next, hk.registered]; exact h.next
  live := fun hid => by rw [hk.registered]; exact h.live (hk.sockets hid)

theorem registerSocket_numbered (h : Numbered s) (hroom : s.registered + 1 < 65535) (fd : Int) :
    Numbered (s.registerSocket fd).1 where
  next := by
    show (s.nextSocketId + 1).toNat = s.registered + 1 + 1
    rw [UInt16.toNat_add, h.next]
    exact Nat.mod_eq_of_lt (by show s.registered + 1 + 1 < 65536; omega)
  live := by
    intro id fd' hid
    show id.toNat ≤ s.registered + 1
    rw [show (s.registerSocket fd).1.sockets = s.sockets.insert s.nextSocketId fd from rfl,
      TreeTable.getElem?_insert] at hid
    split at hid
    · next heq => rw [heq, h.next]
    · exact Nat.le_succ_of_le (h.live hid)

/-- A server in order: its records and the reactor agree, and its ids are numbered. -/
structure Ordered (s : ProtocolServer) : Prop where
  linked : Linked s
  numbered : Numbered s

theorem Ordered.logged (h : Ordered s) (log : List Action) : Ordered { s with log := log } :=
  ⟨h.linked.logged log, h.numbered.kept ⟨rfl, rfl, fun hid => hid⟩⟩

theorem Ordered.register (h : Ordered s) {fd : Int} (hfd : 0 ≤ fd)
    (hroom : s.registered + 1 < 65535) : Ordered (s.registerSocket fd).1 :=
  ⟨registerSocket_linked h.linked hfd h.numbered.free, registerSocket_numbered h.numbered hroom fd⟩

/-- The server after a handler that calls the backend and may register a socket. -/
def Serves (s s' : ProtocolServer) : Prop :=
  (∃ log, s' = { s with log := log }) ∨
  (∃ log log' fd, 0 ≤ fd ∧ s' = { (({ s with log := log } : ProtocolServer).registerSocket fd).1 with
    log := log' })

theorem Ordered.serves (h : Ordered s) (hs : Serves s s') (hroom : s'.registered < 65535) :
    Ordered s' := by
  rcases hs with ⟨log, rfl⟩ | ⟨log, log', fd, hfd, rfl⟩
  · exact h.logged log
  · exact ((h.logged log).register hfd hroom).logged log'

theorem createAndBind_serves (dat : List UInt8) (tcp : Bool) :
    Serves s (s.createAndBind a dat tcp).1 := by
  unfold createAndBind
  split
  · exact .inl ⟨s.log, rfl⟩
  simp only
  split
  · exact .inl ⟨_, rfl⟩
  next hneg =>
  split
  · split <;> exact .inl ⟨_, rfl⟩
  · split <;> exact .inr ⟨_, _, a.create, by omega, rfl⟩

/-! ## Workers -/

/-- A worker's body changes neither the handle nor the descriptor of its record. -/
structure ServeSpec (s : ProtocolServer) (w : EventWatch)
    (served : ProtocolServer × EventWatch × Bool) : Prop where
  server : Serves s served.1
  handle : served.2.1.id = w.id
  fd : served.2.1.fd = w.fd

theorem serveOne_spec (w : EventWatch) (id : UInt16) : ServeSpec s w (s.serveOne a w id) := by
  unfold serveOne
  cases w.kind with
  | kAccept =>
    simp only [acceptOne]
    split
    · exact ⟨.inl ⟨s.log, rfl⟩, rfl, rfl⟩
    split
    · exact ⟨.inl ⟨_, rfl⟩, rfl, rfl⟩
    · exact ⟨.inr ⟨_, _, a.accept, by omega, rfl⟩, rfl, rfl⟩
  | kRecvTcp =>
    simp only [recvForwardTcpOne]
    split
    · exact ⟨.inl ⟨s.log, rfl⟩, rfl, rfl⟩
    split
    · exact ⟨.inl ⟨_, rfl⟩, rfl, rfl⟩
    split <;> exact ⟨.inl ⟨_, rfl⟩, rfl, rfl⟩
  | kRecvUdp =>
    simp only [recvForwardUdpOne]
    split
    · exact ⟨.inl ⟨s.log, rfl⟩, rfl, rfl⟩
    split <;> exact ⟨.inl ⟨_, rfl⟩, rfl, rfl⟩

theorem Serves.eventWatches (h : Serves s s') : s'.eventWatches = s.eventWatches := by
  rcases h with ⟨log, rfl⟩ | ⟨log, log', fd, -, rfl⟩ <;> rfl

theorem onWorkerReadable_ordered (h : Ordered s) (id : UInt16)
    (hroom : (s.onWorkerReadable a id).registered < 65535) : Ordered (s.onWorkerReadable a id) := by
  unfold onWorkerReadable at hroom ⊢
  cases hid : s.eventWatches[id]? with
  | none => exact h
  | some w =>
    simp only [hid] at hroom ⊢
    have hspec := serveOne_spec (s := s) (a := a) w id
    have hid' : (s.serveOne a w id).1.eventWatches[id]? = some w := by
      rw [hspec.server.eventWatches]
      exact hid
    split at hroom
    · next hkeep =>
      have hserved := h.serves hspec.server hroom
      rw [if_pos hkeep]
      exact ⟨hserved.linked.replaceWatch hid' hspec.handle hspec.fd,
        hserved.numbered.kept ⟨rfl, rfl, fun hlive => hlive⟩⟩
    · next hkeep =>
      have hserved := h.serves hspec.server hroom
      have hstop := stopWorker_linked hserved.linked id
      have hkept : Kept (s.serveOne a w id).1 ((s.serveOne a w id).1.stopWorker id) :=
        .of_table (table_stopWorker id)
      simp only [stopWorker, hid'] at hstop hkept
      rw [if_neg hkeep, hspec.handle]
      exact ⟨hstop, hserved.numbered.kept hkept⟩

/-! ## Connects that end -/

/-- The queued sends go out in order and nothing else happens. -/
theorem issueSends_eq (id : UInt16) (fd : Int) (sends : List QueuedSend) :
    sends.foldl (fun s send => s.issueSend id fd send) s =
      { s with log := s.log ++ sends.map fun send => .send id fd send.payload send.urgent } := by
  induction sends generalizing s with
  | nil => simp
  | cons send sends ih =>
    rw [List.foldl_cons, ih]
    simp [issueSend, act]

/-- What `finishConnect` does once the attempt is off the tables. -/
theorem finishConnect_linked {id : UInt16} {p : PendingConnect} {stop : ConnectProgress}
    (hp : s.pendingConnects[id]? = some p) (h : Linked (s.closePending id p))
    (hlive : s.sockets[id]? = some p.fd) (hforward : ∀ w, p.forward = some w → w.fd = p.fd)
    (hfree : stop = .kEstablished → p.forward ≠ none → s.eventWatches[id]? = none) :
    Linked (s.finishConnect id stop) := by
  unfold finishConnect
  simp only [hp, issueSends_eq]
  split
  · next hstop =>
    split
    · next hnone =>
      rw [hnone, Option.isNone_none, if_pos rfl]
      exact (h.act _).logged _
    · next w hw =>
      rw [hw, Option.isNone_some, if_neg (by simp)]
      refine armEventWatch_linked (h.logged _) ?_ (hfree hstop (by rw [hw]; simp))
      rw [hforward w hw]
      exact hlive
  · split
    · exact (h.act _).act _
    · exact ((h.act _).act _).act _

/-- Where the attempt's timer is not running, closing it is dropping it. -/
theorem closePending_eq_drop {id : UInt16} {p : PendingConnect}
    (hp : s.pendingConnects[id]? = some p) (hreport : p.report = kNoTimer) :
    s.closePending id p = s.dropPendingConnect id := by
  simp only [closePending, dropPendingConnect, hp, hreport, ne_eq, not_true_eq_false, if_false]

theorem onConnectWritable_linked (h : Linked s) {id : UInt16} {p : PendingConnect}
    (hp : s.pendingConnects[id]? = some p) (hended : p.ended = .kInProgress)
    (hfree : a.connectProgress = .kEstablished → p.forward ≠ none → s.eventWatches[id]? = none) :
    Linked (s.onConnectWritable a id) := by
  have hreport : p.report = kNoTimer := by
    rcases h.coherent hp with ⟨-, -, hreport⟩ | ⟨hover, -⟩
    · exact hreport
    · exact absurd hended hover
  unfold onConnectWritable
  simp only [hp]
  split
  · refine finishConnect_linked (p := p) hp ?_ (h.pendingLive hp) (fun w hw => h.forwardFd hp hw) hfree
    rw [closePending_eq_drop (s := s.act _) hp hreport]
    exact dropPendingConnect_linked (h.act _) id
  · exact h.act _

/-- The report of a failed attempt, with its timer off the table already. -/
theorem reportFailedConnect_linked (h : Linked s) {id : UInt16} {p : PendingConnect} (now : Int)
    (hp : s.pendingConnects[id]? = some p) (hended : p.ended ≠ .kInProgress) :
    Linked (reportFailedConnect { s with reactor := s.reactor.expire now p.report } id) := by
  rcases h.coherent hp with ⟨hopen, -⟩ | ⟨-, hfailed, hwatch, hreport⟩
  · exact absurd hopen hended
  have hheld : s.heldTimer (.reportFailedConnect id) =
      some (p.report, .reportFailedConnect id) := by
    simp only [heldTimer, hp, Option.bind_some, if_neg hended]
  obtain ⟨t, ht, -⟩ := Option.map_eq_some_iff.mp ((h.timers p.report (.reportFailedConnect id)).mpr hheld)
  have hexpire : s.reactor.expire now p.report = s.reactor.cancel p.report := by
    simp only [Reactor.expire, ht, h.oneShot ht, Bool.false_eq_true, if_false]
    rfl
  unfold reportFailedConnect
  simp only [hp, hexpire]
  refine finishConnect_linked (p := { p with report := kNoTimer }) ?_ ?_ (h.pendingLive (p := p) hp)
    (fun w hw => h.forwardFd (p := p) hp hw) (fun hest => absurd hest hfailed)
  · rw [TreeTable.getElem?_insert, if_pos rfl]
  · refine (dropPendingConnect_linked h id).agree ?_
    simp only [dropPendingConnect, closePending, hp, hwatch, ne_eq, not_true_eq_false, if_false,
      if_pos hreport]
    exact
      { fd := rfl, controlWatch := rfl, sockets := fun _ => rfl, eventWatches := fun _ => rfl
        pendingConnects := by
          intro id'
          simp only [TreeTable.getElem?_erase, TreeTable.getElem?_insert]
          split <;> rfl
        watches := fun _ => rfl, timers := fun _ => rfl, nextWatchId := rfl, nextTimerId := rfl }

/-! ## Steps -/

/-- The step establishes a connect that has a forward queued, on a socket with a worker armed: the
forward is armed over the worker, whose watch nothing names any more. -/
def doubleArms (s : ProtocolServer) (i : Input) : Bool :=
  match s.fires i.trigger with
  | some (.onConnectWritable id) =>
    i.answers.connectProgress = .kEstablished ∧
      (s.pendingConnects[id]?.bind (·.forward)).isSome ∧ s.eventWatches[id]?.isSome
  | _ => false

/-- A watch that fires is a record's, never a failed connect's. -/
theorem fires_watch (h : Linked s) {n : Nat} {handler : Handler}
    (hfires : s.fires (.watch n) = some handler) :
    ∃ v, s.heldWatch handler = some (n, v) ∧ v.fn = handler := by
  obtain ⟨v, hv, rfl⟩ := Option.map_eq_some_iff.mp hfires
  exact ⟨v, (h.watches n v).mp hv, rfl⟩

/-- A timer that fires is a failed connect's. -/
theorem fires_timer (h : Linked s) {n : Nat} {handler : Handler}
    (hfires : s.fires (.timer n) = some handler) :
    ∃ id p, handler = .reportFailedConnect id ∧ s.pendingConnects[id]? = some p ∧
      p.ended ≠ .kInProgress ∧ p.report = n := by
  have hheld : s.heldTimer handler = some (n, handler) := (h.timers n handler).mp hfires
  cases handler with
  | reportFailedConnect id =>
    obtain ⟨p, hp, hif⟩ := Option.bind_eq_some_iff.mp hheld
    split at hif
    · nomatch hif
    · next hended => exact ⟨id, p, rfl, hp, hended, (Prod.mk.inj (Option.some.inj hif)).1⟩
  | _ => nomatch hheld

/-- Only the report of a failed connect is a timer's. -/
theorem entered_of_watch (h : Linked s) {i : Input} {handler : Handler}
    (hfires : s.fires i.trigger = some handler) (hne : ∀ id, handler ≠ .reportFailedConnect id) :
    s.entered i = s := by
  unfold entered
  cases htrigger : i.trigger with
  | watch n => rfl
  | timer n =>
    rw [htrigger] at hfires
    obtain ⟨id, -, heq, -⟩ := fires_timer h hfires
    exact absurd heq (hne id)

theorem closeSocket_kept (dat : List UInt8) : Kept s (s.closeSocket dat).1 := by
  unfold closeSocket
  split
  · exact .refl s
  next req _ =>
  have htable := table_eraseSocket (s := s) req.socketId req.abort
  cases hid : s.sockets[req.socketId]? with
  | none =>
    rw [hid] at htable
    exact .of_table htable
  | some fd =>
    rw [hid] at htable
    refine ⟨congrArg Table.nextSocketId htable, congrArg Table.registered htable, ?_⟩
    intro id' fd' hid'
    rw [show (s.eraseSocket req.socketId req.abort).1.sockets = _ from congrArg Table.sockets htable,
      Table.getElem?_close] at hid'
    split at hid'
    · nomatch hid'
    · exact hid'

theorem perform_ordered (h : Ordered s) {req : Request} (p : Primitive) (hp : p ≠ .other)
    (hroom : (s.perform a req p).1.registered < 65535) : Ordered (s.perform a req p).1 := by
  cases p with
  | endTest =>
    refine ⟨closeAllSockets_linked (stopAllWorkers_linked h.linked) stopAllWorkers_gone, ?_⟩
    have hkept : Kept s s.stopAllWorkers := .of_table table_stopAllWorkers
    refine h.numbered.kept (hkept.trans ⟨rfl, rfl, ?_⟩)
    intro id fd hid
    simp [perform, closeAllSockets] at hid
  | createAndBind tcp => exact h.serves (createAndBind_serves req.dat tcp) hroom
  | connect =>
    exact ⟨connectTcp_linked h.linked _ _ _, h.numbered.kept (.of_table (table_connectTcp ..))⟩
  | listenAndAccept =>
    exact ⟨listenAndAcceptTcp_linked h.linked _ _ _,
      h.numbered.kept (.of_table (table_listenAndAcceptTcp ..))⟩
  | sendDataTcp =>
    exact ⟨sendDataTcp_linked h.linked _, h.numbered.kept (.of_table (table_sendDataTcp ..))⟩
  | closeSocket =>
    exact ⟨closeSocket_linked h.linked _, h.numbered.kept (closeSocket_kept _)⟩
  | shutdown =>
    exact ⟨shutdownSocket_linked h.linked _, h.numbered.kept (.of_table (table_shutdownSocket ..))⟩
  | receiveAndForward udp =>
    exact ⟨receiveAndForward_linked h.linked _ _ _ _,
      h.numbered.kept (.of_table (table_receiveAndForward ..))⟩
  | other => exact absurd rfl hp

/-- The attempt whose write watch fires is under way. -/
theorem fires_connect (h : Linked s) {i : Input} {id : UInt16}
    (hfires : s.fires i.trigger = some (.onConnectWritable id)) :
    ∃ p, s.pendingConnects[id]? = some p ∧ p.ended = .kInProgress ∧
      s.reactor.watches[p.watch]? = some ⟨p.fd, .onConnectWritable id, true⟩ := by
  cases htrigger : i.trigger with
  | watch n =>
    rw [htrigger] at hfires
    obtain ⟨v, hheld, -⟩ := fires_watch h hfires
    obtain ⟨p, hp, hif⟩ := Option.bind_eq_some_iff.mp hheld
    split at hif
    · next hended =>
      refine ⟨p, hp, hended, (h.watches _ _).mpr ?_⟩
      simp only [heldWatch, hp, Option.bind_some, if_pos hended]
    · cases hif
  | timer n =>
    rw [htrigger] at hfires
    obtain ⟨_, _, heq, -⟩ := fires_timer h hfires
    cases heq

theorem step_ordered (h : Ordered s) {i : Input} (hok : s.doubleArms i = false)
    (hroom : (s.step i).registered < 65535) : Ordered (s.step i) := by
  cases hreq : s.request i with
  | some req =>
    have hfires : s.fires i.trigger = some .onControlReadable := by
      unfold request at hreq
      split at hreq
      · assumption
      · cases hreq
    rw [step_of_request hreq, entered_of_watch h.linked hfires (by simp), serve] at hroom ⊢
    refine Ordered.logged ?_ _
    have hread := h.logged (s.log ++ [.recvFromV4 s.fd])
    have hdispatch := dispatch_spec (s.act (.recvFromV4 s.fd)) i.answers req
    generalize (s.act (.recvFromV4 s.fd)).dispatch i.answers req.header req.dat req.peer = done
      at hdispatch hroom ⊢
    rcases hdispatch with ⟨-, acts, -, hdone⟩ | ⟨hne, rfl⟩
    · rw [hdone]
      exact hread.logged _
    · exact perform_ordered hread req.primitive hne hroom
  | none =>
    rcases step_of_no_request hreq with ⟨-, hstep⟩ | ⟨hfires, hquiet⟩ | ⟨id, hfires, hstep⟩ |
      ⟨id, hfires, hstep⟩ | ⟨id, hfires, hstep⟩
    · rw [hstep]
      exact h
    · obtain ⟨acts, -, hstep⟩ := hquiet
      rw [hstep, entered_of_watch h.linked hfires (by simp)]
      exact h.logged _
    · rw [hstep, entered_of_watch h.linked hfires (by simp)] at hroom ⊢
      exact onWorkerReadable_ordered h id hroom
    · obtain ⟨p, hp, hended, -⟩ := fires_connect h.linked hfires
      rw [hstep, entered_of_watch h.linked hfires (by simp)]
      refine ⟨onConnectWritable_linked h.linked hp hended ?_,
        h.numbered.kept (.of_table (table_onConnectWritable id))⟩
      intro hest hforward
      by_contra harmed
      have hdouble : s.doubleArms i = true := by
        simp only [doubleArms, hfires, hp, Option.bind_some]
        exact decide_eq_true ⟨hest, Option.isSome_iff_ne_none.mpr hforward,
          Option.isSome_iff_ne_none.mpr harmed⟩
      cases hok.symm.trans hdouble
    · have hkept : Kept s ((s.entered i).reportFailedConnect id) :=
        .of_table ((table_reportFailedConnect id).trans (table_entered i))
      rw [hstep]
      refine ⟨?_, h.numbered.kept hkept⟩
      cases htrigger : i.trigger with
      | watch n =>
        rw [htrigger] at hfires
        obtain ⟨v, hheld, -⟩ := fires_watch h.linked hfires
        cases hheld
      | timer n =>
        rw [htrigger] at hfires
        obtain ⟨_, p, heq, hp, hended, rfl⟩ := fires_timer h.linked hfires
        obtain rfl := Handler.reportFailedConnect.inj heq
        rw [entered, htrigger]
        exact reportFailedConnect_linked h.linked i.answers.now hp hended

/-! ## Registrations are counted up -/

theorem Serves.registered_le (h : Serves s s') : s.registered ≤ s'.registered := by
  rcases h with ⟨log, rfl⟩ | ⟨log, log', fd, -, rfl⟩
  · exact le_refl _
  · exact Nat.le_succ _

theorem perform_registered {req : Request} (p : Primitive) (hp : p ≠ .other) :
    s.registered ≤ (s.perform a req p).1.registered := by
  have hsame : ∀ {s' : ProtocolServer}, s'.table = s.table → s.registered ≤ s'.registered :=
    fun htable => (congrArg Table.registered htable).ge
  cases p with
  | endTest => exact (congrArg Table.registered (table_stopAllWorkers (s := s))).ge
  | createAndBind tcp => exact (createAndBind_serves req.dat tcp).registered_le
  | connect => exact hsame (table_connectTcp ..)
  | listenAndAccept => exact hsame (table_listenAndAcceptTcp ..)
  | sendDataTcp => exact hsame (table_sendDataTcp ..)
  | closeSocket => exact (closeSocket_kept req.dat).registered.ge
  | shutdown => exact hsame (table_shutdownSocket ..)
  | receiveAndForward udp => exact hsame (table_receiveAndForward ..)
  | other => exact absurd rfl hp

theorem onWorkerReadable_registered (id : UInt16) :
    s.registered ≤ (s.onWorkerReadable a id).registered := by
  unfold onWorkerReadable
  split
  · exact le_refl _
  next w _ =>
  have hserved := (serveOne_spec (s := s) (a := a) w id).server.registered_le
  simp only
  split <;> exact hserved

theorem step_registered (s : ProtocolServer) (i : Input) : s.registered ≤ (s.step i).registered := by
  have hentered : (s.entered i).registered = s.registered :=
    congrArg Table.registered (table_entered i)
  have hsame : ∀ {s' : ProtocolServer}, s'.table = (s.entered i).table → s.registered ≤ s'.registered :=
    fun htable => ((congrArg Table.registered htable).trans hentered).ge
  cases hreq : s.request i with
  | some req =>
    rw [step_of_request hreq, serve]
    have hdispatch := dispatch_spec ((s.entered i).act (.recvFromV4 s.fd)) i.answers req
    generalize ((s.entered i).act (.recvFromV4 s.fd)).dispatch i.answers req.header req.dat req.peer =
      done at hdispatch ⊢
    rcases hdispatch with ⟨-, acts, -, hdone⟩ | ⟨hne, rfl⟩
    · rw [hdone]
      exact hentered.ge
    · exact hentered.ge.trans (perform_registered (s := (s.entered i).act _) req.primitive hne)
  | none =>
    rcases step_of_no_request hreq with ⟨-, hstep⟩ | ⟨-, hquiet⟩ | ⟨id, -, hstep⟩ | ⟨id, -, hstep⟩ |
      ⟨id, -, hstep⟩
    · rw [hstep]
    · exact hsame hquiet.table_eq
    · rw [hstep]
      exact hentered.ge.trans (onWorkerReadable_registered id)
    · rw [hstep]
      exact hsame (table_onConnectWritable id)
    · rw [hstep]
      exact hsame (table_reportFailedConnect id)

theorem run_registered (s : ProtocolServer) (is : List Input) : s.registered ≤ (s.run is).registered := by
  induction is generalizing s with
  | nil => exact le_refl _
  | cons i is ih => exact (step_registered s i).trans (ih (s.step i))

/-! ## Runs -/

/-- What holds of the records and the reactor: the records are of live sockets and have their
descriptors, the reactor's watches are the control watch and one for each record, and what can fire
fires for a live socket. -/
structure Consistent (s : ProtocolServer) : Prop where
  eventLive : ∀ (id : UInt16) (w : EventWatch),
    s.eventWatches[id]? = some w → s.sockets[id]? = some w.fd
  pendingLive : ∀ (id : UInt16) (p : PendingConnect),
    s.pendingConnects[id]? = some p → s.sockets[id]? = some p.fd
  watches : ∀ (n : Nat) (v : Watch Handler),
    s.reactor.watches[n]? = some v ↔ s.heldWatch v.fn = some (n, v)
  firesLive : ∀ (trigger : Trigger) (handler : Handler) (id : UInt16),
    s.fires trigger = some handler → handler.socketId = some id → s.sockets[id]? ≠ none

theorem Linked.heldWatch_live (h : Linked s) {handler : Handler} {id : UInt16} {n : Nat}
    {v : Watch Handler} (hheld : s.heldWatch handler = some (n, v))
    (hid : handler.socketId = some id) : s.sockets[id]? ≠ none := by
  cases handler with
  | onControlReadable => nomatch hid
  | onWorkerReadable id' =>
    obtain rfl := Option.some.inj hid
    obtain ⟨w, hw, -⟩ := Option.map_eq_some_iff.mp hheld
    rw [h.eventLive hw]
    exact Option.some_ne_none _
  | onConnectWritable id' =>
    obtain rfl := Option.some.inj hid
    obtain ⟨p, hp, -⟩ := Option.bind_eq_some_iff.mp hheld
    rw [h.pendingLive hp]
    exact Option.some_ne_none _
  | reportFailedConnect id' => nomatch hheld

theorem Linked.consistent (h : Linked s) : Consistent s where
  eventLive _ _ hid := h.eventLive hid
  pendingLive _ _ hid := h.pendingLive hid
  watches := h.watches
  firesLive := by
    intro trigger handler id hfires hid
    cases trigger with
    | watch n =>
      obtain ⟨v, hheld, -⟩ := fires_watch h hfires
      exact h.heldWatch_live hheld hid
    | timer n =>
      obtain ⟨id', p, rfl, hp, -⟩ := fires_timer h hfires
      obtain rfl := Option.some.inj hid
      rw [h.pendingLive hp]
      exact Option.some_ne_none _

/-- A worker armed while the reactor has another watch for its socket. -/
theorem armEventWatch_stale {id : UInt16} {w : EventWatch} {n : Nat} {v : Watch Handler}
    (hfd : 0 ≤ w.fd) (hstale : s.reactor.watches[n]? = some v) (hfn : v.fn = .onWorkerReadable id)
    (hbound : n < s.reactor.nextWatchId) : ¬ Consistent (s.armEventWatch id w) := by
  intro hc
  have hadd : s.reactor.addWatch w.fd (.onWorkerReadable id) =
      ({ s.reactor with
          watches := s.reactor.watches.insert s.reactor.nextWatchId
            ⟨w.fd, .onWorkerReadable id, false⟩
          nextWatchId := s.reactor.nextWatchId + 1 }, s.reactor.nextWatchId) :=
    if_neg (not_lt.mpr hfd)
  have hheld := (hc.watches n v).mp (by
    simp only [armEventWatch, hadd, TreeTable.getElem?_insert, if_neg hbound.ne]
    exact hstale)
  simp only [hfn, heldWatch, armEventWatch, hadd, TreeTable.getElem?_insert, if_true,
    Option.map_some] at hheld
  exact hbound.ne (Prod.mk.inj (Option.some.inj hheld)).1.symm

/-- **A forward armed over a worker leaves a watch behind** that no record names. -/
theorem step_doubleArms (h : Linked s) {i : Input} (hdouble : s.doubleArms i = true) :
    ¬ Consistent (s.step i) := by
  unfold doubleArms at hdouble
  split at hdouble
  · next id hfires =>
    obtain ⟨hest, hforward, harmed⟩ := of_decide_eq_true hdouble
    obtain ⟨p, hp, -, hwatch⟩ := fires_connect h hfires
    rw [hp, Option.bind_some] at hforward
    obtain ⟨w, hw⟩ := Option.isSome_iff_exists.mp hforward
    obtain ⟨old, hold⟩ := Option.isSome_iff_exists.mp harmed
    have hstale : s.reactor.watches[old.id]? = some ⟨old.fd, .onWorkerReadable id, false⟩ :=
      (h.watches _ _).mpr (heldWatch_worker hold)
    have hne : old.id ≠ p.watch := by
      intro heq
      rw [heq, hwatch] at hstale
      simp at hstale
    have hbound : old.id < s.reactor.nextWatchId := h.watchBound (by rw [hstale]; simp)
    have hlive := h.pendingLive hp
    rw [← h.forwardFd hp hw] at hlive
    have hstep : s.step i = (s.entered i).onConnectWritable i.answers id := by
      rw [step, hfires]
      rfl
    rw [hstep, entered_of_watch h hfires (by simp)]
    simp only [onConnectWritable, hp, hest, finishConnect, act, issueSends_eq, hw,
      Option.isNone_some, Bool.false_eq_true, if_true, if_false, ne_eq, reduceCtorEq,
      not_false_eq_true]
    refine armEventWatch_stale (n := old.id) (v := ⟨old.fd, .onWorkerReadable id, false⟩)
      (h.fdNonneg hlive) ?_ rfl ?_
    · simp only [closePending]
      split
      · simp only [Reactor.removeWatch, TreeTable.getElem?_erase, if_neg hne]
        exact hstale
      · exact hstale
    · simp only [closePending]
      split <;> exact hbound
  · cases hdouble

theorem start_ordered {fd : Int} (hfd : 0 ≤ fd) : Ordered (start fd) := by
  have hadd : ({} : Reactor Handler).addWatch fd .onControlReadable =
      ({ watches := (∅ : Std.TreeMap Nat (Watch Handler)).insert 1 ⟨fd, .onControlReadable, false⟩
         nextWatchId := 2 }, 1) := if_neg (not_lt.mpr hfd)
  have hwatches : ∀ n : Nat, ((∅ : Std.TreeMap Nat (Watch Handler)).insert 1
      ⟨fd, .onControlReadable, false⟩)[n]? =
        if n = 1 then some ⟨fd, .onControlReadable, false⟩ else none := by
    intro n
    rw [TreeTable.getElem?_insert]
    simp
  refine ⟨?_, ⟨rfl, fun hid => by simp [start] at hid⟩⟩
  simp only [start, hadd]
  exact
    { fdNonneg := fun hid => by simp at hid
      eventLive := fun hid => by simp at hid
      pendingLive := fun hid => by simp at hid
      forwardFd := fun hid => by simp at hid
      coherent := fun hid => by simp at hid
      watches := by
        intro n v
        simp only [hwatches]
        split
        · next hn =>
          constructor
          · rintro ⟨⟩
            rw [hn]
            rfl
          · intro hheld
            cases hv : v.fn <;> simp_all [heldWatch]
        · next hn =>
          refine iff_of_false (by simp) ?_
          intro hheld
          cases hv : v.fn <;> simp_all [heldWatch]
      timers := by
        intro n v
        cases v <;> simp [heldTimer]
      oneShot := fun hn => by simp at hn
      watchBound := by
        intro n hn
        simp only [hwatches] at hn
        split at hn
        · next hone =>
          rw [hone]
          exact Nat.lt_succ_self 1
        · exact absurd rfl hn
      timerBound := fun hn => by simp at hn
      watchPos := Nat.succ_pos _
      timerPos := Nat.succ_pos _ }

/-- **The tables stay together exactly while no forward is armed over a worker.** Over a run that
registers fewer than 65535 sockets, whatever the backend answers: the records and the reactor are
consistent in every state reached if and only if no step establishes a connect with a forward queued
on a socket that has a worker. -/
theorem consistent_iff_no_double_arm (fd : Int) (is : List Input) (hfd : 0 ≤ fd)
    (hroom : ((start fd).run is).registered < 65535) :
    (∀ before after, is = before ++ after → Consistent ((start fd).run before)) ↔
      Along step (fun s i => s.doubleArms i = false) (start fd) is := by
  have h := start_ordered hfd
  generalize start fd = s at *
  induction is generalizing s with
  | nil =>
    refine ⟨fun _ => along_nil, fun _ before after heq => ?_⟩
    rw [(List.append_eq_nil_iff.mp heq.symm).1]
    exact h.linked.consistent
  | cons i is ih =>
    have hroom' : (s.step i).registered < 65535 := (run_registered (s.step i) is).trans_lt hroom
    constructor
    · intro hall
      have hok : s.doubleArms i = false := by
        by_contra hdouble
        exact step_doubleArms h.linked (by simpa using hdouble) (hall [i] is rfl)
      refine .cons hok ((ih _ hroom (step_ordered h hok hroom')).mp fun before after heq => ?_)
      exact hall (i :: before) after (by rw [heq]; rfl)
    · intro hok before after heq
      cases before with
      | nil => exact h.linked.consistent
      | cons i' before =>
        obtain ⟨rfl, htail⟩ := List.cons.inj heq
        exact (ih _ hroom (step_ordered h hok.head hroom')).mpr hok.tail before after htail

/-- A connect under way on the socket `id`. -/
def connectInput (id : UInt16) : Input :=
  requestInput kGidTcp kPidConnect (appendIpv4Addr (appendU16 (appendU16 [] id) 5000) 0x0100007F) {}

def forwardInput (id : UInt16) : Input :=
  requestInput kGidTcp kPidReceiveAndForward (appendU16 (appendU16 (appendU16 [] id) 2048) 100) {}

def listenInput (id : UInt16) : Input :=
  requestInput kGidTcp kPidListenAndAccept (appendU16 (appendU16 [] id) 1) {}

/-- The connect of the first socket establishes. -/
def establishInput : Input := ⟨.watch 2, { connectProgress := .kEstablished }⟩

/-- A connect with a forward queued establishes, and the forward reads. -/
def forwardRun : List Input :=
  [createInput 10, connectInput 1, forwardInput 1, establishInput,
    ⟨.watch 3, { recvEnd := some [1, 2, 3] }⟩]

theorem consistent_iff_no_double_arm_forward :
    ((start 3).run forwardRun).registered < 65535 ∧
    ∀ before after, forwardRun = before ++ after → Consistent ((start 3).run before) := by
  have hroom : ((start 3).run forwardRun).registered < 65535 := by decide +kernel
  have hsingle : Along step (fun s i => s.doubleArms i = false) (start 3) forwardRun := by
    decide +kernel
  exact ⟨hroom, (consistent_iff_no_double_arm 3 _ (by decide) hroom).mpr hsingle⟩

/-- A forward queued on a connect, LISTEN_AND_ACCEPT on the same socket, the connect established and
the socket closed. -/
def doubleArmRun : List Input :=
  [createInput 10, connectInput 1, forwardInput 1, listenInput 1, establishInput, closeInput 1]

/-- **A watch outlives its socket.** The accept watch is still registered when the socket is gone. -/
theorem doubleArmRun_fires_closed :
    ((start 3).run doubleArmRun).registered < 65535 ∧
    ((start 3).run doubleArmRun).fires (.watch 3) = some (.onWorkerReadable 1) ∧
    ((start 3).run doubleArmRun).sockets[(1 : UInt16)]? = none ∧
    ¬ (∀ before after, doubleArmRun = before ++ after → Consistent ((start 3).run before)) := by
  have hfires : ((start 3).run doubleArmRun).fires (.watch 3) = some (.onWorkerReadable 1) := by
    decide +kernel
  have hclosed : ((start 3).run doubleArmRun).sockets[(1 : UInt16)]? = none := by decide +kernel
  refine ⟨by decide +kernel, hfires, hclosed, ?_⟩
  intro hall
  exact (hall doubleArmRun [] (List.append_nil _).symm).firesLive (.watch 3) _ 1 hfires rfl hclosed

end ProtocolServer

end Tc8Harness.Testability
