import Tc8Harness.Testability.WatchRuns

/-!
# Handles of the server's watches

The handles the records hold were drawn from the reactor's counter, so none of them is one that will
be drawn later. A watch that one socket's record owns (`Owner`) therefore stays in the reactor through
every step that does not take that record away, whatever the other sockets do.
-/

namespace Tc8Harness.Testability

open Someip

/-- The socket whose record owns a watch, its handle, and what it was registered for. -/
structure Owner where
  id : UInt16
  watch : Nat
  entry : Watch Handler

/-- The connect is over when `connectStartV4` returns: nothing is pending. -/
def ConnectProgress.settles : ConnectProgress → Bool
  | .kEstablished | .kAlreadyConnected | .kFailed => true
  | _ => false

/-- The request closes the socket or gives its record away: to an accept, to a forward armed anew or
to a connect that is pending. -/
def Request.takes (req : Request) (a : Answers) (id : UInt16) : Bool :=
  match req.primitive with
  | .endTest => true
  | .connect =>
    (parseConnectTcp req.dat).any (fun r => r.socketId == id) && !a.connectStartV4.settles
  | .listenAndAccept =>
    (parseListenAndAcceptTcp req.dat).any (fun r => r.listenSocketId == id) && a.listen
  | .closeSocket => (parseCloseSocket req.dat).any fun r => r.socketId == id
  | .receiveAndForward _ => (parseReceiveAndForward req.dat).any fun r => r.socketId == id
  | _ => false

namespace ProtocolServer

variable {s s' : ProtocolServer} {a : Answers} {own : Option Owner}

/-- The records' handles are below the counter, and what is owned is in the reactor and no other
record's. -/
structure Handles (own : Option Owner) (s : ProtocolServer) : Prop where
  pos : 0 < s.reactor.nextWatchId
  sockets : ∀ {id : UInt16} {fd : Int}, s.sockets[id]? = some fd → 0 ≤ fd
  workers : ∀ {id : UInt16} {w : EventWatch}, s.eventWatches[id]? = some w →
    w.id < s.reactor.nextWatchId ∧ ∀ o ∈ own, w.id = o.watch → id = o.id
  pendings : ∀ {id : UInt16} {p : PendingConnect}, s.pendingConnects[id]? = some p →
    p.watch < s.reactor.nextWatchId ∧ ∀ o ∈ own, p.watch ≠ o.watch
  watch : ∀ o ∈ own, s.reactor.watches[o.watch]? = some o.entry ∧ kNoWatch < o.watch ∧
    o.watch < s.reactor.nextWatchId

/-- A handle that was drawn between the two states, or is none. -/
def Drawn (s s' : ProtocolServer) (n : Nat) : Prop :=
  n = kNoWatch ∨ s.reactor.nextWatchId ≤ n ∧ n < s'.reactor.nextWatchId

/-- What is owned stays where it is, and the records hold what they held or what was drawn. -/
theorem Handles.update (h : Handles own s) (hnext : s.reactor.nextWatchId ≤ s'.reactor.nextWatchId)
    (hsockets : ∀ {id : UInt16} {fd : Int}, s'.sockets[id]? = some fd → 0 ≤ fd)
    (hworkers : ∀ {id : UInt16} {w : EventWatch}, s'.eventWatches[id]? = some w →
      (∃ w', s.eventWatches[id]? = some w' ∧ w'.id = w.id) ∨ Drawn s s' w.id)
    (hpendings : ∀ {id : UInt16} {p : PendingConnect}, s'.pendingConnects[id]? = some p →
      (∃ p', s.pendingConnects[id]? = some p' ∧ p'.watch = p.watch) ∨ Drawn s s' p.watch)
    (hwatch : ∀ o ∈ own, s'.reactor.watches[o.watch]? = s.reactor.watches[o.watch]?) :
    Handles own s' := by
  have hpos : 0 < s'.reactor.nextWatchId := h.pos.trans_le hnext
  have hdrawn : ∀ {n : Nat}, Drawn s s' n →
      n < s'.reactor.nextWatchId ∧ ∀ o ∈ own, n ≠ o.watch := by
    rintro n (rfl | ⟨hle, hlt⟩)
    · exact ⟨hpos, fun o ho heq => absurd (h.watch o ho).2.1 (by rw [← heq]; exact Nat.lt_irrefl _)⟩
    · refine ⟨hlt, fun o ho heq => ?_⟩
      have := (h.watch o ho).2.2
      omega
  refine ⟨hpos, hsockets, ?_, ?_, ?_⟩
  · intro id w hw
    rcases hworkers hw with ⟨w', hw', heq⟩ | hnew
    · rw [← heq]
      exact ⟨(h.workers hw').1.trans_le hnext, (h.workers hw').2⟩
    · exact ⟨(hdrawn hnew).1, fun o ho heq => absurd heq ((hdrawn hnew).2 o ho)⟩
  · intro id p hp
    rcases hpendings hp with ⟨p', hp', heq⟩ | hnew
    · rw [← heq]
      exact ⟨(h.pendings hp').1.trans_le hnext, (h.pendings hp').2⟩
    · exact hdrawn hnew
  · intro o ho
    rw [hwatch o ho]
    exact ⟨(h.watch o ho).1, (h.watch o ho).2.1, (h.watch o ho).2.2.trans_le hnext⟩

/-! ## Records let go and taken up -/

/-- Fewer sockets and records. -/
theorem Handles.fewer (h : Handles own s) (hnext : s'.reactor.nextWatchId = s.reactor.nextWatchId)
    (hsockets : ∀ {id : UInt16} {fd : Int}, s'.sockets[id]? = some fd → s.sockets[id]? = some fd)
    (hworkers : ∀ {id : UInt16} {w : EventWatch},
      s'.eventWatches[id]? = some w → s.eventWatches[id]? = some w)
    (hpendings : ∀ {id : UInt16} {p : PendingConnect},
      s'.pendingConnects[id]? = some p → s.pendingConnects[id]? = some p)
    (hwatch : ∀ o ∈ own, s'.reactor.watches[o.watch]? = s.reactor.watches[o.watch]?) :
    Handles own s' :=
  h.update hnext.symm.le (fun hid => h.sockets (hsockets hid))
    (fun hw => .inl ⟨_, hworkers hw, rfl⟩) (fun hp => .inl ⟨_, hpendings hp, rfl⟩) hwatch

theorem Handles.logged (h : Handles own s) (log : List Action) : Handles own { s with log := log } :=
  h.fewer rfl id id id fun _ _ => rfl

theorem Handles.act (h : Handles own s) (action : Action) : Handles own (s.act action) := h.logged _

theorem Handles.stopWorker (h : Handles own s) {id : UInt16} (hne : ∀ o ∈ own, id ≠ o.id) :
    Handles own (s.stopWorker id) := by
  unfold ProtocolServer.stopWorker
  split
  · exact h
  · next w hw =>
    refine h.fewer rfl (fun hid => hid) ?_ (fun hp => hp) ?_
    · intro k v hv
      rw [TreeTable.getElem?_erase] at hv
      split at hv
      · nomatch hv
      · exact hv
    · intro o ho
      refine (TreeTable.getElem?_erase w.id o.watch).trans (if_neg fun heq => ?_)
      exact hne o ho ((h.workers hw).2 o ho heq.symm)

theorem Handles.dropPendingConnect (h : Handles own s) (id : UInt16) :
    Handles own (s.dropPendingConnect id) := by
  unfold ProtocolServer.dropPendingConnect
  split
  · exact h
  · next p hp =>
    dsimp only
    refine h.fewer ?_ (fun hid => hid) (fun hw => hw) ?_ ?_
    · split <;> split <;> rfl
    · intro k q hq
      rw [TreeTable.getElem?_erase] at hq
      split at hq
      · nomatch hq
      · exact hq
    · intro o ho
      have hkept : (s.reactor.removeWatch p.watch).watches[o.watch]? =
          s.reactor.watches[o.watch]? :=
        (TreeTable.getElem?_erase p.watch o.watch).trans
          (if_neg fun heq => (h.pendings hp).2 o ho heq.symm)
      split <;> split
      · exact hkept
      · rfl
      · exact hkept
      · rfl

/-- What a registration draws, and that it leaves the others where they are. -/
theorem addWatchFor_drawn (r : Reactor Handler) (fd : Int) (fn : Handler) (onWrite : Bool) :
    r.nextWatchId ≤ (r.addWatchFor fd fn onWrite).1.nextWatchId ∧
      ((r.addWatchFor fd fn onWrite).2 = kNoWatch ∨
        r.nextWatchId ≤ (r.addWatchFor fd fn onWrite).2 ∧
          (r.addWatchFor fd fn onWrite).2 < (r.addWatchFor fd fn onWrite).1.nextWatchId) ∧
      ∀ n, n < r.nextWatchId → (r.addWatchFor fd fn onWrite).1.watches[n]? = r.watches[n]? := by
  unfold Reactor.addWatchFor
  split
  · exact ⟨le_rfl, .inl rfl, fun _ _ => rfl⟩
  · refine ⟨Nat.le_succ _, .inr ⟨le_rfl, Nat.lt_succ_self _⟩, fun n hn => ?_⟩
    exact (TreeTable.getElem?_insert _ n _).trans (if_neg (Nat.ne_of_lt hn))

theorem Handles.armEventWatch (h : Handles own s) (id : UInt16) (w : EventWatch) :
    Handles own (s.armEventWatch id w) := by
  obtain ⟨hnext, hdrawn, hkept⟩ := addWatchFor_drawn s.reactor w.fd (.onWorkerReadable id) false
  refine h.update hnext (fun hid => h.sockets hid) ?_ (fun hp => .inl ⟨_, hp, rfl⟩)
    fun o ho => hkept o.watch (h.watch o ho).2.2
  intro k v hv
  simp only [ProtocolServer.armEventWatch, TreeTable.getElem?_insert] at hv
  split at hv
  · obtain rfl := Option.some.inj hv
    exact .inr hdrawn
  · exact .inl ⟨v, hv, rfl⟩

/-- A worker that is armed owns the watch it draws. -/
theorem Handles.armed (h : Handles none s) (id : UInt16) {w : EventWatch} (hfd : 0 ≤ w.fd) :
    Handles (some ⟨id, s.reactor.nextWatchId, ⟨w.fd, .onWorkerReadable id, false⟩⟩)
      (s.armEventWatch id w) := by
  have hadd : s.reactor.addWatch w.fd (.onWorkerReadable id) =
      ({ s.reactor with
          watches := s.reactor.watches.insert s.reactor.nextWatchId
            ⟨w.fd, .onWorkerReadable id, false⟩
          nextWatchId := s.reactor.nextWatchId + 1 }, s.reactor.nextWatchId) :=
    if_neg (not_lt.mpr hfd)
  unfold ProtocolServer.armEventWatch
  simp only [hadd]
  refine ⟨Nat.succ_pos _, h.sockets, ?_, ?_, ?_⟩
  · intro k v hv
    rw [TreeTable.getElem?_insert] at hv
    split at hv
    · next heq =>
      obtain rfl := Option.some.inj hv
      refine ⟨Nat.lt_succ_self _, ?_⟩
      rintro o ⟨⟩ -
      exact heq
    · have hlt := (h.workers hv).1
      refine ⟨Nat.lt_succ_of_lt hlt, ?_⟩
      rintro o ⟨⟩ heq
      exact absurd heq (Nat.ne_of_lt hlt)
  · intro k p hp
    have hlt := (h.pendings hp).1
    refine ⟨Nat.lt_succ_of_lt hlt, ?_⟩
    rintro o ⟨⟩
    exact Nat.ne_of_lt hlt
  · rintro o ⟨⟩
    exact ⟨(TreeTable.getElem?_insert _ _ _).trans (if_pos rfl), h.pos, Nat.lt_succ_self _⟩

theorem Handles.openPending (h : Handles own s) {req : ConnectReq} (fd : Int) (serviceId : UInt16)
    (peer : Endpoint) (hne : ∀ o ∈ own, req.socketId ≠ o.id) :
    Handles own (s.openPending a req fd serviceId peer) := by
  have hstopped := h.stopWorker hne
  unfold ProtocolServer.openPending
  simp only
  split
  · obtain ⟨hnext, hdrawn, hkept⟩ := addWatchFor_drawn (s.stopWorker req.socketId).reactor fd
      (.onConnectWritable req.socketId) true
    refine hstopped.update hnext (fun hid => hstopped.sockets hid) (fun hw => .inl ⟨_, hw, rfl⟩) ?_
      fun o ho => hkept o.watch (hstopped.watch o ho).2.2
    intro k p hp
    rw [TreeTable.getElem?_insert] at hp
    split at hp
    · obtain rfl := Option.some.inj hp
      exact .inr hdrawn
    · exact .inl ⟨p, hp, rfl⟩
  · refine hstopped.update le_rfl (fun hid => hstopped.sockets hid) (fun hw => .inl ⟨_, hw, rfl⟩) ?_
      fun o ho => rfl
    intro k p hp
    rw [TreeTable.getElem?_insert] at hp
    split at hp
    · obtain rfl := Option.some.inj hp
      exact .inr (.inl rfl)
    · exact .inl ⟨p, hp, rfl⟩

theorem Handles.replacePending (h : Handles own s) {id : UInt16} {p p' : PendingConnect}
    (hp : s.pendingConnects[id]? = some p) (hwatch : p'.watch = p.watch) :
    Handles own { s with pendingConnects := s.pendingConnects.insert id p' } := by
  refine h.update le_rfl (fun hid => h.sockets hid) (fun hw => .inl ⟨_, hw, rfl⟩) ?_ fun _ _ => rfl
  intro k q hq
  rw [TreeTable.getElem?_insert] at hq
  split at hq
  · next heq =>
    obtain rfl := Option.some.inj hq
    exact .inl ⟨p, heq ▸ hp, hwatch.symm⟩
  · exact .inl ⟨q, hq, rfl⟩

theorem Handles.replaceWorker (h : Handles own s) {id : UInt16} {w w' : EventWatch}
    (hw : s.eventWatches[id]? = some w) (hid : w'.id = w.id) :
    Handles own { s with eventWatches := s.eventWatches.insert id w' } := by
  refine h.update le_rfl (fun hid => h.sockets hid) ?_ (fun hp => .inl ⟨_, hp, rfl⟩) fun _ _ => rfl
  intro k v hv
  rw [TreeTable.getElem?_insert] at hv
  split at hv
  · next heq =>
    obtain rfl := Option.some.inj hv
    exact .inl ⟨w, heq ▸ hw, hid.symm⟩
  · exact .inl ⟨v, hv, rfl⟩

theorem Handles.register (h : Handles own s) {fd : Int} (hfd : 0 ≤ fd) :
    Handles own (s.registerSocket fd).1 := by
  refine h.update le_rfl ?_ (fun hw => .inl ⟨_, hw, rfl⟩) (fun hp => .inl ⟨_, hp, rfl⟩) fun _ _ => rfl
  intro k f hk
  simp only [registerSocket, TreeTable.getElem?_insert] at hk
  split at hk
  · obtain rfl := Option.some.inj hk
    exact hfd
  · exact h.sockets hk

theorem Handles.serves (h : Handles own s) (hs : Serves s s') : Handles own s' := by
  rcases hs with ⟨log, rfl⟩ | ⟨log, log', fd, hfd, rfl⟩
  · exact h.logged log
  · exact ((h.logged log).register hfd).logged log'

/-! ## Requests -/

theorem connectTcp_handles (h : Handles own s) {dat : List UInt8} (serviceId : UInt16)
    (peer : Endpoint) (hne : ∀ o ∈ own, ∀ req, parseConnectTcp dat = some req →
      a.connectStartV4.settles = false → req.socketId ≠ o.id) :
    Handles own (s.connectTcp a dat serviceId peer).1 := by
  unfold connectTcp
  split
  · exact h
  next req hreq =>
  split
  · exact h
  next fd _ =>
  split
  · exact h
  have hstarted := h.act (.connectStartV4 fd req.dst)
  have hsettled : Handles own ((s.act (.connectStartV4 fd req.dst)).settleMode req.socketId fd) := by
    unfold settleMode
    split
    · exact hstarted
    · exact hstarted.act _
  simp only
  cases hstart : a.connectStartV4 with
  | kEstablished | kAlreadyConnected | kFailed => exact hsettled
  | kInProgress | kRefused | kReset | kTimedOut =>
    refine hstarted.openPending fd serviceId peer fun o ho => ?_
    exact hne o ho req hreq (by rw [hstart]; rfl)

theorem listenAndAcceptTcp_handles (h : Handles own s) {dat : List UInt8} (serviceId : UInt16)
    (peer : Endpoint) (hne : ∀ o ∈ own, ∀ req, parseListenAndAcceptTcp dat = some req →
      a.listen = true → req.listenSocketId ≠ o.id) :
    Handles own (s.listenAndAcceptTcp a dat serviceId peer).1 := by
  unfold listenAndAcceptTcp
  split
  · exact h
  next req hreq =>
  simp only
  split
  · exact h
  split
  · exact h.act _
  · next hlisten =>
    refine Handles.armEventWatch (Handles.act (Handles.stopWorker (h.act _) fun o ho => ?_) _) _ _
    exact hne o ho req hreq (by simpa using hlisten)

theorem sendDataTcp_handles (h : Handles own s) (dat : List UInt8) :
    Handles own (s.sendDataTcp a dat).1 := by
  unfold sendDataTcp
  split
  · exact h
  split
  · exact h
  simp only
  split
  · next p hp =>
    split
    · exact h
    · exact h.replacePending hp rfl
  · exact h.act _

theorem eraseSocket_handles (h : Handles own s) {id : UInt16} (abort : Bool)
    (hne : ∀ o ∈ own, id ≠ o.id) : Handles own (s.eraseSocket id abort).1 := by
  have hstopped := (h.stopWorker hne).dropPendingConnect id
  unfold eraseSocket
  simp only
  split
  · exact hstopped
  · refine hstopped.fewer rfl ?_ (fun hw => hw) (fun hp => hp) fun _ _ => rfl
    intro k f hk
    have hk' : (((s.stopWorker id).dropPendingConnect id).sockets.erase id)[k]? = some f := hk
    rw [TreeTable.getElem?_erase] at hk'
    split at hk'
    · nomatch hk'
    · exact hk'

theorem shutdownSocket_handles (h : Handles own s) (dat : List UInt8) :
    Handles own (s.shutdownSocket a dat).1 := by
  unfold shutdownSocket
  split
  · exact h
  split
  · exact h
  split
  · exact h
  · exact (h.dropPendingConnect _).act _

theorem receiveAndForward_handles (h : Handles own s) {dat : List UInt8} (serviceId : UInt16)
    (peer : Endpoint) (udp : Bool) (hne : ∀ o ∈ own, ∀ req, parseReceiveAndForward dat = some req →
      req.socketId ≠ o.id) : Handles own (s.receiveAndForward a dat serviceId peer udp).1 := by
  unfold receiveAndForward
  split
  · exact h
  next req hreq =>
  split
  · exact h
  simp only
  split
  · next p hp => exact h.replacePending hp rfl
  · refine Handles.armEventWatch (Handles.act (Handles.stopWorker ?_ fun o ho => ?_) _) _ _
    · exact Handles.act (Handles.logged (h.act _) _) _
    · exact hne o ho req hreq

theorem dropAllPendingConnects_handles (h : Handles own s) : Handles own s.dropAllPendingConnects := by
  unfold dropAllPendingConnects
  generalize s.pendingConnects.keys = ids
  induction ids generalizing s with
  | nil => exact h
  | cons id ids ih => exact ih (h.dropPendingConnect id)

/-- END_TEST leaves no records; nothing is owned then. -/
theorem endTest_handles (h : Handles none s) : Handles none s.stopAllWorkers.closeAllSockets := by
  have hcleared : Handles none
      { s with
        reactor := s.eventWatches.foldl (fun r _ w => r.removeWatch w.id) s.reactor
        eventWatches := ∅ } := by
    refine h.fewer ?_ (fun hid => hid) ?_ (fun hp => hp) (by simp)
    · rw [Std.TreeMap.foldl_eq_foldl_toList]
      exact (removeWatches_rest s.eventWatches.toList s.reactor).2.1
    · intro id w hw
      simp at hw
  refine (dropAllPendingConnects_handles hcleared).fewer rfl ?_ (fun hw => hw) (fun hp => hp) (by simp)
  intro id fd hid
  simp [closeAllSockets] at hid

theorem perform_handles (h : Handles own s) {req : Request} (hp : req.primitive ≠ .other)
    (hok : ∀ o ∈ own, req.takes a o.id = false) : Handles own (s.perform a req req.primitive).1 := by
  unfold Request.takes at hok
  cases hprim : req.primitive with
  | endTest =>
    have hnone : own = none := by
      cases own with
      | none => rfl
      | some o => simpa [hprim] using hok o rfl
    subst hnone
    exact endTest_handles h
  | createAndBind tcp => exact h.serves (createAndBind_serves req.dat tcp)
  | connect =>
    refine connectTcp_handles h _ _ fun o ho r hr hstart heq => ?_
    have := hok o ho
    simp [hprim, hr, heq, hstart] at this
  | listenAndAccept =>
    refine listenAndAcceptTcp_handles h _ _ fun o ho r hr hlisten heq => ?_
    have := hok o ho
    simp [hprim, hr, heq, hlisten] at this
  | sendDataTcp => exact sendDataTcp_handles h _
  | closeSocket =>
    simp only [perform, noDat, closeSocket]
    cases hparse : parseCloseSocket req.dat with
    | none => exact h
    | some close =>
      refine eraseSocket_handles h close.abort fun o ho heq => ?_
      have := hok o ho
      simp [hprim, hparse, heq] at this
  | shutdown => exact shutdownSocket_handles h _
  | receiveAndForward udp =>
    refine receiveAndForward_handles h _ _ udp fun o ho r hr heq => ?_
    have := hok o ho
    simp [hprim, hr, heq] at this
  | other => exact absurd hprim hp

/-! ## Workers and connects -/

/-- A worker keeps its handle, or lets it go when it is done. -/
theorem onWorkerReadable_handles (h : Handles own s) {id : UInt16} (hne : ∀ o ∈ own, id ≠ o.id) :
    Handles own (s.onWorkerReadable a id) := by
  unfold onWorkerReadable
  cases hw : s.eventWatches[id]? with
  | none => exact h
  | some w =>
    have hspec := serveOne_spec (s := s) (a := a) w id
    have hserved := h.serves hspec.server
    have hw' : (s.serveOne a w id).1.eventWatches[id]? = some w := by
      rw [hspec.server.eventWatches]
      exact hw
    simp only
    split
    · exact hserved.replaceWorker hw' hspec.handle
    · have hstopped := hserved.stopWorker hne
      simp only [ProtocolServer.stopWorker, hw'] at hstopped
      rw [hspec.handle]
      exact hstopped

theorem closePending_handles (h : Handles own s) {id : UInt16} {p : PendingConnect}
    (hp : s.pendingConnects[id]? = some p) : Handles own (s.closePending id p) := by
  refine h.fewer ?_ (fun hid => hid) (fun hw => hw) ?_ ?_
  · unfold closePending
    dsimp only
    split <;> rfl
  · intro k q hq
    simp only [closePending, TreeTable.getElem?_erase] at hq
    split at hq
    · cases hq
    · exact hq
  · intro o ho
    unfold closePending
    dsimp only
    split
    · exact (TreeTable.getElem?_erase p.watch o.watch).trans
        (if_neg fun heq => (h.pendings hp).2 o ho heq.symm)
    · rfl

theorem finishConnect_handles (h : Handles own s) (id : UInt16) (stop : ConnectProgress) :
    Handles own (s.finishConnect id stop) := by
  unfold finishConnect
  cases hp : s.pendingConnects[id]? with
  | none => exact h
  | some p =>
    have hclosed := closePending_handles h hp
    simp only [issueSends_eq]
    split
    · have hmode : Handles own (if p.forward.isNone then
          (s.closePending id p).act (.setNonBlocking p.fd false) else s.closePending id p) := by
        split
        · exact hclosed.act _
        · exact hclosed
      split
      · exact hmode.logged _
      · exact Handles.armEventWatch (hmode.logged _) _ _
    · split
      · exact (hclosed.act _).act _
      · exact ((hclosed.act _).act _).act _

theorem onConnectWritable_handles (h : Handles own s) (id : UInt16) :
    Handles own (s.onConnectWritable a id) := by
  unfold onConnectWritable
  split
  · exact h
  simp only
  split
  · exact finishConnect_handles (h.act _) id _
  · exact h.act _

theorem reportFailedConnect_handles (h : Handles own s) (id : UInt16) :
    Handles own (s.reportFailedConnect id) := by
  unfold reportFailedConnect
  split
  · exact h
  · next p hp =>
    have hcleared := h.replacePending hp (rfl : { p with report := kNoTimer }.watch = p.watch)
    exact finishConnect_handles hcleared id _

/-! ## Steps -/

theorem Handles.entered (h : Handles own s) (i : Input) : Handles own (s.entered i) := by
  unfold ProtocolServer.entered
  cases i.trigger with
  | watch n => exact h
  | timer n =>
    have hrest : (s.reactor.expire i.answers.now n).watches = s.reactor.watches ∧
        (s.reactor.expire i.answers.now n).nextWatchId = s.reactor.nextWatchId := by
      unfold Reactor.expire
      split
      · exact ⟨rfl, rfl⟩
      · split <;> exact ⟨rfl, rfl⟩
    refine h.fewer hrest.2 (fun hid => hid) (fun hw => hw) (fun hp => hp) fun o _ => ?_
    exact congrArg (fun m : Std.TreeMap Nat (Watch Handler) => m[o.watch]?) hrest.1

/-- The step serves no request that takes the owner's record away, and does not run its worker. -/
structure Apart (id : UInt16) (s : ProtocolServer) (i : Input) : Prop where
  request : ∀ req, s.request i = some req → req.takes i.answers id = false
  worker : s.fires i.trigger ≠ some (.onWorkerReadable id)

theorem step_handles (h : Handles own s) {i : Input} (hok : ∀ o ∈ own, Apart o.id s i) :
    Handles own (s.step i) := by
  have hentered := h.entered i
  cases hreq : s.request i with
  | some req =>
    rw [step_of_request hreq, serve]
    refine Handles.act ?_ _
    rcases dispatch_spec ((s.entered i).act (.recvFromV4 s.fd)) i.answers req with
      ⟨-, acts, -, hdone⟩ | ⟨hne, hdone⟩
    · rw [hdone]
      exact (hentered.act _).logged _
    · rw [hdone]
      exact perform_handles (hentered.act _) hne fun o ho => (hok o ho).request req hreq
  | none =>
    rcases step_of_no_request hreq with ⟨-, hstep⟩ | ⟨-, hquiet⟩ | ⟨id, hfires, hstep⟩ |
      ⟨id, -, hstep⟩ | ⟨id, -, hstep⟩
    · rw [hstep]
      exact h
    · obtain ⟨acts, -, hstep⟩ := hquiet
      rw [hstep]
      exact hentered.logged _
    · rw [hstep]
      refine onWorkerReadable_handles hentered fun o ho heq => ?_
      exact (hok o ho).worker (heq ▸ hfires)
    · rw [hstep]
      exact onConnectWritable_handles hentered id
    · rw [hstep]
      exact reportFailedConnect_handles hentered id

theorem start_handles (fd : Int) : Handles none (start fd) where
  pos := by
    unfold start Reactor.addWatch Reactor.addWatchFor
    split
    · exact Nat.one_pos
    · exact Nat.succ_pos _
  sockets hid := by simp [start] at hid
  workers hw := by simp [start] at hw
  pendings hp := by simp [start] at hp
  watch := by simp

theorem run_handles (fd : Int) (is : List Input) : Handles none ((start fd).run is) := by
  have h := start_handles fd
  generalize start fd = s at *
  induction is generalizing s with
  | nil => exact h
  | cons i is ih => exact ih _ (step_handles h (by simp))

end ProtocolServer

end Tc8Harness.Testability
