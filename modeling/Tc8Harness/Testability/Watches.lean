import Tc8Harness.Lib.Handles
import Tc8Harness.Lib.TreeTable
import Tc8Harness.Testability.Requests

/-!
# Watches, pending connects and the reactor

The server's records and the reactor's tables describe each other: every event watch and every
in-progress connect holds one reactor watch, every connect that failed at once holds one timer, and
nothing else is registered but the control watch (`heldWatch`, `heldTimer`). `Linked` says so, with
what keeps it going; each operation on the records keeps it, under the conditions its callers meet.
-/

namespace Tc8Harness.Testability

open Someip Handles

/-- The socket a handler serves. -/
def Handler.socketId : Handler → Option UInt16
  | .onControlReadable => none
  | .onWorkerReadable id => some id
  | .onConnectWritable id => some id
  | .reportFailedConnect id => some id

/-- A pending connect is under way with a watch, or over with a timer. -/
def PendingConnect.Coherent (p : PendingConnect) : Prop :=
  (p.ended = .kInProgress ∧ p.watch ≠ kNoWatch ∧ p.report = kNoTimer) ∨
  (p.ended ≠ .kInProgress ∧ p.ended ≠ .kEstablished ∧ p.watch = kNoWatch ∧ p.report ≠ kNoTimer)

namespace ProtocolServer

variable {s s' : ProtocolServer} {a : Answers}

/-! ## What the records hold -/

/-- The reactor watch a handler's record holds: its handle, and what it was registered for. -/
def heldWatch (s : ProtocolServer) : Handler → Option (Nat × Watch Handler)
  | .onControlReadable => some (s.controlWatch, ⟨s.fd, .onControlReadable, false⟩)
  | .onWorkerReadable id => s.eventWatches[id]?.map fun w => (w.id, ⟨w.fd, .onWorkerReadable id, false⟩)
  | .onConnectWritable id =>
    s.pendingConnects[id]?.bind fun p =>
      if p.ended = .kInProgress then some (p.watch, ⟨p.fd, .onConnectWritable id, true⟩) else none
  | .reportFailedConnect _ => none

/-- The timer a handler's record holds. -/
def heldTimer (s : ProtocolServer) : Handler → Option (Nat × Handler)
  | .reportFailedConnect id =>
    s.pendingConnects[id]?.bind fun p =>
      if p.ended = .kInProgress then none else some (p.report, .reportFailedConnect id)
  | _ => none

structure Linked (s : ProtocolServer) : Prop where
  fdNonneg : ∀ {id : UInt16} {fd : Int}, s.sockets[id]? = some fd → 0 ≤ fd
  eventLive : ∀ {id : UInt16} {w : EventWatch},
    s.eventWatches[id]? = some w → s.sockets[id]? = some w.fd
  pendingLive : ∀ {id : UInt16} {p : PendingConnect},
    s.pendingConnects[id]? = some p → s.sockets[id]? = some p.fd
  forwardFd : ∀ {id : UInt16} {p : PendingConnect} {w : EventWatch},
    s.pendingConnects[id]? = some p → p.forward = some w → w.fd = p.fd
  coherent : ∀ {id : UInt16} {p : PendingConnect},
    s.pendingConnects[id]? = some p → p.Coherent
  watches : Registered Watch.fn (fun n => s.reactor.watches[n]?) s.heldWatch
  timers : Registered (fun h => h) (fun n => s.reactor.timers[n]?.map Timer.fn) s.heldTimer
  oneShot : ∀ {n : Nat} {t : Timer Handler}, s.reactor.timers[n]? = some t → t.periodic = false
  watchBound : ∀ {n : Nat}, s.reactor.watches[n]? ≠ none → n < s.reactor.nextWatchId
  timerBound : ∀ {n : Nat}, s.reactor.timers[n]? ≠ none → n < s.reactor.nextTimerId
  watchPos : 0 < s.reactor.nextWatchId
  timerPos : 0 < s.reactor.nextTimerId

/-- Only lookups matter. -/
structure Agree (s s' : ProtocolServer) : Prop where
  fd : s'.fd = s.fd
  controlWatch : s'.controlWatch = s.controlWatch
  sockets : ∀ id : UInt16, s'.sockets[id]? = s.sockets[id]?
  eventWatches : ∀ id : UInt16, s'.eventWatches[id]? = s.eventWatches[id]?
  pendingConnects : ∀ id : UInt16, s'.pendingConnects[id]? = s.pendingConnects[id]?
  watches : ∀ n : Nat, s'.reactor.watches[n]? = s.reactor.watches[n]?
  timers : ∀ n : Nat, s'.reactor.timers[n]? = s.reactor.timers[n]?
  nextWatchId : s'.reactor.nextWatchId = s.reactor.nextWatchId
  nextTimerId : s'.reactor.nextTimerId = s.reactor.nextTimerId

theorem heldWatch_congr (hfd : s'.fd = s.fd) (hcontrol : s'.controlWatch = s.controlWatch)
    (hevents : ∀ id : UInt16, s'.eventWatches[id]? = s.eventWatches[id]?)
    (hpending : ∀ id : UInt16, s'.pendingConnects[id]? = s.pendingConnects[id]?) (h : Handler) :
    s'.heldWatch h = s.heldWatch h := by
  cases h <;> simp only [heldWatch, hfd, hcontrol, hevents, hpending]

theorem heldTimer_congr
    (hpending : ∀ id : UInt16, s'.pendingConnects[id]? = s.pendingConnects[id]?) (h : Handler) :
    s'.heldTimer h = s.heldTimer h := by
  cases h <;> simp only [heldTimer, hpending]

theorem Linked.agree (h : Linked s) (ha : Agree s s') : Linked s' where
  fdNonneg hid := h.fdNonneg ((ha.sockets _).symm.trans hid)
  eventLive hid := (ha.sockets _).trans (h.eventLive ((ha.eventWatches _).symm.trans hid))
  pendingLive hid := (ha.sockets _).trans (h.pendingLive ((ha.pendingConnects _).symm.trans hid))
  forwardFd hid := h.forwardFd ((ha.pendingConnects _).symm.trans hid)
  coherent hid := h.coherent ((ha.pendingConnects _).symm.trans hid)
  watches := h.watches.congr ha.watches
    (heldWatch_congr ha.fd ha.controlWatch ha.eventWatches ha.pendingConnects)
  timers := h.timers.congr (fun n => by rw [ha.timers]) (heldTimer_congr ha.pendingConnects)
  oneShot hn := h.oneShot ((ha.timers _).symm.trans hn)
  watchBound hn := by rw [ha.watches] at hn; rw [ha.nextWatchId]; exact h.watchBound hn
  timerBound hn := by rw [ha.timers] at hn; rw [ha.nextTimerId]; exact h.timerBound hn
  watchPos := by rw [ha.nextWatchId]; exact h.watchPos
  timerPos := by rw [ha.nextTimerId]; exact h.timerPos

/-- The log and the counters are no part of it. -/
theorem Linked.logged (h : Linked s) (log : List Action) : Linked { s with log := log } :=
  h.agree ⟨rfl, rfl, fun _ => rfl, fun _ => rfl, fun _ => rfl, fun _ => rfl, fun _ => rfl, rfl, rfl⟩

theorem Linked.act (h : Linked s) (action : Action) : Linked (s.act action) := h.logged _

theorem Linked.quiet (h : Linked s) (hq : Quiet s s') : Linked s' := by
  obtain ⟨acts, -, rfl⟩ := hq
  exact h.logged _

/-! ## Records let go and taken up -/

theorem heldWatch_worker {id : UInt16} {w : EventWatch} (hid : s.eventWatches[id]? = some w) :
    s.heldWatch (.onWorkerReadable id) = some (w.id, ⟨w.fd, .onWorkerReadable id, false⟩) := by
  rw [heldWatch, hid]
  rfl

theorem stopWorker_linked (h : Linked s) (id : UInt16) : Linked (s.stopWorker id) := by
  unfold stopWorker
  cases hid : s.eventWatches[id]? with
  | none => exact h
  | some w =>
    have hevents : ∀ id' : UInt16, (s.eventWatches.erase id)[id']? =
        if id' = id then none else s.eventWatches[id']? := fun id' => TreeTable.getElem?_erase id id'
    exact
      { h with
        eventLive := by
          intro id' w' hid'
          simp only [hevents] at hid'
          split at hid'
          · nomatch hid'
          · exact h.eventLive hid'
        watches := by
          refine h.watches.release (heldWatch_worker hid) rfl
            (fun n' => TreeTable.getElem?_erase w.id n') ?_ ?_
          · simp only [heldWatch, hevents, if_true, Option.map_none]
          · intro handler hne
            cases handler with
            | onWorkerReadable id' =>
              have hne' : id' ≠ id := fun heq => hne (by rw [heq])
              simp only [heldWatch, hevents, if_neg hne']
            | _ => rfl
        timers := h.timers.congr (fun _ => rfl) (heldTimer_congr fun _ => rfl)
        watchBound := by
          intro n hn
          refine h.watchBound (fun hnone => hn ?_)
          simp only [Reactor.removeWatch, TreeTable.getElem?_erase, hnone, ite_self] }

theorem stopWorker_gone (id : UInt16) : (s.stopWorker id).eventWatches[id]? = none := by
  unfold stopWorker
  split
  · assumption
  · simp only [TreeTable.getElem?_erase, if_true]

@[simp] theorem sockets_stopWorker (id : UInt16) : (s.stopWorker id).sockets = s.sockets := by
  unfold stopWorker
  split <;> rfl

@[simp] theorem pendingConnects_stopWorker (id : UInt16) :
    (s.stopWorker id).pendingConnects = s.pendingConnects := by
  unfold stopWorker
  split <;> rfl

/-- The fields of a server whose only change to its records is that `id` has no pending connect. -/
theorem Linked.withoutPending (h : Linked s) {id : UInt16} {reactor : Reactor Handler}
    (hwatches : Registered Watch.fn (fun n => reactor.watches[n]?)
      ({ s with reactor, pendingConnects := s.pendingConnects.erase id } : ProtocolServer).heldWatch)
    (htimers : Registered (fun h => h) (fun n => reactor.timers[n]?.map Timer.fn)
      ({ s with reactor, pendingConnects := s.pendingConnects.erase id } : ProtocolServer).heldTimer)
    (honeShot : ∀ {n : Nat} {t : Timer Handler}, reactor.timers[n]? = some t → t.periodic = false)
    (hwatchBound : ∀ {n : Nat}, reactor.watches[n]? ≠ none → n < reactor.nextWatchId)
    (htimerBound : ∀ {n : Nat}, reactor.timers[n]? ≠ none → n < reactor.nextTimerId)
    (hwatchPos : 0 < reactor.nextWatchId) (htimerPos : 0 < reactor.nextTimerId) :
    Linked { s with reactor, pendingConnects := s.pendingConnects.erase id } := by
  have hold : ∀ {id' : UInt16} {p : PendingConnect},
      (s.pendingConnects.erase id)[id']? = some p → s.pendingConnects[id']? = some p := by
    intro id' p hid'
    rw [TreeTable.getElem?_erase] at hid'
    split at hid'
    · nomatch hid'
    · exact hid'
  exact
    { fdNonneg := h.fdNonneg
      eventLive := h.eventLive
      pendingLive := fun hid' => h.pendingLive (hold hid')
      forwardFd := fun hid' => h.forwardFd (hold hid')
      coherent := fun hid' => h.coherent (hold hid')
      watches := hwatches, timers := htimers, oneShot := honeShot, watchBound := hwatchBound
      timerBound := htimerBound, watchPos := hwatchPos, timerPos := htimerPos }

theorem dropPendingConnect_linked (h : Linked s) (id : UInt16) : Linked (s.dropPendingConnect id) := by
  unfold dropPendingConnect
  cases hid : s.pendingConnects[id]? with
  | none => exact h
  | some p =>
    have hpending : ∀ id' : UInt16, (s.pendingConnects.erase id)[id']? =
        if id' = id then none else s.pendingConnects[id']? := fun id' => TreeTable.getElem?_erase id id'
    rcases h.coherent hid with ⟨hended, hwatch, hreport⟩ | ⟨hended, -, hwatch, hreport⟩
    · -- under way: the write watch goes with the record
      simp only [if_pos hwatch, hreport, ne_eq, not_true_eq_false, if_false]
      have hheld : s.heldWatch (.onConnectWritable id) =
          some (p.watch, ⟨p.fd, .onConnectWritable id, true⟩) := by
        simp only [heldWatch, hid, Option.bind_some, hended, if_true]
      refine h.withoutPending ?_ ?_ h.oneShot ?_ h.timerBound h.watchPos h.timerPos
      · refine h.watches.release hheld rfl (fun n' => TreeTable.getElem?_erase p.watch n') ?_ ?_
        · simp only [heldWatch, hpending, if_true, Option.bind_none]
        · intro handler hne
          cases handler with
          | onConnectWritable id' =>
            have hne' : id' ≠ id := fun heq => hne (by rw [heq])
            simp only [heldWatch, hpending, if_neg hne']
          | _ => rfl
      · refine h.timers.congr (fun _ => rfl) ?_
        intro handler
        cases handler with
        | reportFailedConnect id' =>
          by_cases heq : id' = id
          · simp only [heldTimer, hpending, heq, hid, Option.bind_none, Option.bind_some, hended,
              if_true]
          · simp only [heldTimer, hpending, if_neg heq]
        | _ => rfl
      · intro n hn
        refine h.watchBound (fun hnone => hn ?_)
        simp only [Reactor.removeWatch, TreeTable.getElem?_erase, hnone, ite_self]
    · -- over: the report timer goes with the record
      simp only [hwatch, ne_eq, not_true_eq_false, if_false, if_pos hreport]
      have hheld : s.heldTimer (.reportFailedConnect id) =
          some (p.report, .reportFailedConnect id) := by
        simp only [heldTimer, hid, Option.bind_some, hended, if_false]
      have htimers : ∀ n' : Nat, (s.reactor.cancel p.report).timers[n']? =
          if n' = p.report then none else s.reactor.timers[n']? :=
        fun n' => TreeTable.getElem?_erase p.report n'
      refine h.withoutPending ?_ ?_ ?_ h.watchBound ?_ h.watchPos h.timerPos
      · refine h.watches.congr (fun _ => rfl) ?_
        intro handler
        cases handler with
        | onConnectWritable id' =>
          by_cases heq : id' = id
          · simp only [heldWatch, hpending, heq, hid, Option.bind_none, Option.bind_some, hended,
              if_true, if_false]
          · simp only [heldWatch, hpending, if_neg heq]
        | _ => rfl
      · refine h.timers.release hheld rfl (fun n' => ?_) ?_ ?_
        · rw [htimers]
          split <;> rfl
        · simp only [heldTimer, hpending, if_true, Option.bind_none]
        · intro handler hne
          cases handler with
          | reportFailedConnect id' =>
            have hne' : id' ≠ id := fun heq => hne (by rw [heq])
            simp only [heldTimer, hpending, if_neg hne']
          | _ => rfl
      · intro n t hn
        rw [htimers] at hn
        split at hn
        · nomatch hn
        · exact h.oneShot hn
      · intro n hn
        refine h.timerBound (fun hnone => hn ?_)
        rw [htimers, hnone, ite_self]

theorem dropPendingConnect_gone (id : UInt16) :
    (s.dropPendingConnect id).pendingConnects[id]? = none := by
  unfold dropPendingConnect
  split
  · assumption
  · simp only [TreeTable.getElem?_erase, if_true]

@[simp] theorem sockets_dropPendingConnect (id : UInt16) :
    (s.dropPendingConnect id).sockets = s.sockets := by
  unfold dropPendingConnect
  split <;> rfl

@[simp] theorem eventWatches_dropPendingConnect (id : UInt16) :
    (s.dropPendingConnect id).eventWatches = s.eventWatches := by
  unfold dropPendingConnect
  split <;> rfl

theorem armEventWatch_linked (h : Linked s) {id : UInt16} {w : EventWatch}
    (hlive : s.sockets[id]? = some w.fd) (hfree : s.eventWatches[id]? = none) :
    Linked (s.armEventWatch id w) := by
  have hadd : s.reactor.addWatch w.fd (.onWorkerReadable id) =
      ({ s.reactor with
          watches := s.reactor.watches.insert s.reactor.nextWatchId
            ⟨w.fd, .onWorkerReadable id, false⟩
          nextWatchId := s.reactor.nextWatchId + 1 }, s.reactor.nextWatchId) :=
    if_neg (not_lt.mpr (h.fdNonneg hlive))
  have hwatches : ∀ n : Nat, (s.reactor.watches.insert s.reactor.nextWatchId
      (⟨w.fd, .onWorkerReadable id, false⟩ : Watch Handler))[n]? =
        if n = s.reactor.nextWatchId then some ⟨w.fd, .onWorkerReadable id, false⟩
        else s.reactor.watches[n]? := fun n => TreeTable.getElem?_insert _ n _
  have hevents : ∀ id' : UInt16,
      (s.eventWatches.insert id { w with id := s.reactor.nextWatchId })[id']? =
        if id' = id then some { w with id := s.reactor.nextWatchId } else s.eventWatches[id']? :=
    fun id' => TreeTable.getElem?_insert id id' _
  have hunused : s.reactor.watches[s.reactor.nextWatchId]? = none := by
    by_contra hused
    exact absurd (h.watchBound hused) (Nat.lt_irrefl _)
  simp only [armEventWatch, hadd]
  exact
    { h with
      eventLive := by
        intro id' w' hid'
        simp only [hevents] at hid'
        split at hid'
        · next heq =>
          rw [← Option.some.inj hid', heq]
          exact hlive
        · exact h.eventLive hid'
      watches := by
        refine h.watches.acquire hunused ?_ hwatches ?_ ?_
        · simp only [heldWatch, hfree, Option.map_none]
        · simp only [heldWatch, hevents, if_true, Option.map_some]
        · intro handler hne
          cases handler with
          | onWorkerReadable id' =>
            have hne' : id' ≠ id := fun heq => hne (by rw [heq])
            simp only [heldWatch, hevents, if_neg hne']
          | _ => rfl
      timers := h.timers.congr (fun _ => rfl) (heldTimer_congr fun _ => rfl)
      watchBound := by
        intro n hn
        simp only [hwatches] at hn
        split at hn
        · next heq => exact Nat.lt_succ_of_le heq.le
        · exact Nat.lt_succ_of_lt (h.watchBound hn)
      watchPos := Nat.succ_pos _ }

/-- A record that keeps its handle and its descriptor. -/
theorem Linked.replaceWatch (h : Linked s) {id : UInt16} {w w' : EventWatch}
    (hid : s.eventWatches[id]? = some w) (hhandle : w'.id = w.id) (hfd : w'.fd = w.fd) :
    Linked { s with eventWatches := s.eventWatches.insert id w' } := by
  have hevents : ∀ id' : UInt16, (s.eventWatches.insert id w')[id']? =
      if id' = id then some w' else s.eventWatches[id']? := fun id' => TreeTable.getElem?_insert id id' _
  exact
    { h with
      eventLive := by
        intro id' w'' hid'
        simp only [hevents] at hid'
        split at hid'
        · next heq =>
          rw [← Option.some.inj hid', heq, hfd]
          exact h.eventLive hid
        · exact h.eventLive hid'
      watches := by
        refine h.watches.congr (fun _ => rfl) ?_
        intro handler
        cases handler with
        | onWorkerReadable id' =>
          by_cases heq : id' = id
          · simp only [heldWatch, hevents, heq, if_true, hid, Option.map_some, hhandle, hfd]
          · simp only [heldWatch, hevents, if_neg heq]
        | _ => rfl
      timers := h.timers.congr (fun _ => rfl) (heldTimer_congr fun _ => rfl) }

/-- A pending connect that keeps its descriptor, its handles and its state. -/
theorem Linked.replacePending (h : Linked s) {id : UInt16} {p p' : PendingConnect}
    (hid : s.pendingConnects[id]? = some p) (hfd : p'.fd = p.fd) (hwatch : p'.watch = p.watch)
    (hreport : p'.report = p.report) (hended : p'.ended = p.ended)
    (hforward : ∀ w, p'.forward = some w → w.fd = p'.fd) :
    Linked { s with pendingConnects := s.pendingConnects.insert id p' } := by
  have hpending : ∀ id' : UInt16, (s.pendingConnects.insert id p')[id']? =
      if id' = id then some p' else s.pendingConnects[id']? :=
    fun id' => TreeTable.getElem?_insert id id' _
  exact
    { h with
      pendingLive := by
        intro id' q hid'
        simp only [hpending] at hid'
        split at hid'
        · next heq =>
          rw [← Option.some.inj hid', heq, hfd]
          exact h.pendingLive hid
        · exact h.pendingLive hid'
      forwardFd := by
        intro id' q w hid'
        simp only [hpending] at hid'
        split at hid'
        · rw [← Option.some.inj hid']
          exact hforward w
        · exact h.forwardFd hid'
      coherent := by
        intro id' q hid'
        simp only [hpending] at hid'
        split at hid'
        · rw [← Option.some.inj hid', PendingConnect.Coherent, hended, hwatch, hreport]
          exact h.coherent hid
        · exact h.coherent hid'
      watches := by
        refine h.watches.congr (fun _ => rfl) ?_
        intro handler
        cases handler with
        | onConnectWritable id' =>
          by_cases heq : id' = id
          · simp only [heldWatch, hpending, heq, if_true, hid, Option.bind_some, hended, hwatch, hfd]
          · simp only [heldWatch, hpending, if_neg heq]
        | _ => rfl
      timers := by
        refine h.timers.congr (fun _ => rfl) ?_
        intro handler
        cases handler with
        | reportFailedConnect id' =>
          by_cases heq : id' = id
          · simp only [heldTimer, hpending, heq, if_true, hid, Option.bind_some, hended, hreport]
          · simp only [heldTimer, hpending, if_neg heq]
        | _ => rfl }

/-- A registration under a free id. -/
theorem registerSocket_linked (h : Linked s) {fd : Int} (hfd : 0 ≤ fd)
    (hfree : s.sockets[s.nextSocketId]? = none) : Linked (s.registerSocket fd).1 := by
  have hsockets : ∀ id : UInt16, (s.sockets.insert s.nextSocketId fd)[id]? =
      if id = s.nextSocketId then some fd else s.sockets[id]? :=
    fun id => TreeTable.getElem?_insert _ id _
  have hkept : ∀ {id : UInt16} {fd' : Int}, s.sockets[id]? = some fd' →
      (s.sockets.insert s.nextSocketId fd)[id]? = some fd' := by
    intro id fd' hid
    rw [hsockets, if_neg, hid]
    rintro rfl
    rw [hfree] at hid
    nomatch hid
  exact
    { h with
      fdNonneg := by
        intro id fd' hid
        simp only [registerSocket, hsockets] at hid
        split at hid
        · rw [← Option.some.inj hid]
          exact hfd
        · exact h.fdNonneg hid
      eventLive := fun hid => hkept (h.eventLive hid)
      pendingLive := fun hid => hkept (h.pendingLive hid)
      watches := h.watches.congr (fun _ => rfl) (heldWatch_congr rfl rfl (fun _ => rfl) fun _ => rfl)
      timers := h.timers.congr (fun _ => rfl) (heldTimer_congr fun _ => rfl) }

/-- A socket that has no records is taken off the table. -/
theorem Linked.eraseSocket (h : Linked s) {id : UInt16} (hevent : s.eventWatches[id]? = none)
    (hpending : s.pendingConnects[id]? = none) :
    Linked { s with sockets := s.sockets.erase id } := by
  have hsockets : ∀ id' : UInt16, (s.sockets.erase id)[id']? =
      if id' = id then none else s.sockets[id']? := fun id' => TreeTable.getElem?_erase id id'
  exact
    { h with
      fdNonneg := by
        intro id' fd hid'
        simp only [hsockets] at hid'
        split at hid'
        · nomatch hid'
        · exact h.fdNonneg hid'
      eventLive := by
        intro id' w hid'
        have hne : id' ≠ id := by
          rintro rfl
          exact nomatch hevent.symm.trans hid'
        exact (hsockets id').trans ((if_neg hne).trans (h.eventLive hid'))
      pendingLive := by
        intro id' p hid'
        have hne : id' ≠ id := by
          rintro rfl
          exact nomatch hpending.symm.trans hid'
        exact (hsockets id').trans ((if_neg hne).trans (h.pendingLive hid'))
      watches := h.watches.congr (fun _ => rfl) (heldWatch_congr rfl rfl (fun _ => rfl) fun _ => rfl)
      timers := h.timers.congr (fun _ => rfl) (heldTimer_congr fun _ => rfl) }

/-! ## All records let go -/

theorem dropPendingConnects_lookup (ids : List UInt16) (id : UInt16) :
    (ids.foldl dropPendingConnect s).pendingConnects[id]? =
      if id ∈ ids then none else s.pendingConnects[id]? := by
  induction ids generalizing s with
  | nil => rfl
  | cons id' ids ih =>
    have hdrop : (s.dropPendingConnect id').pendingConnects[id]? =
        if id = id' then none else s.pendingConnects[id]? := by
      unfold dropPendingConnect
      split
      · next hnone =>
        split
        · next heq => rw [heq, hnone]
        · rfl
      · exact TreeTable.getElem?_erase id' id
    rw [List.foldl_cons, ih, hdrop]
    by_cases hmem : id ∈ ids <;> by_cases heq : id = id' <;> simp [hmem, heq]

theorem dropAllPendingConnects_linked (h : Linked s) : Linked s.dropAllPendingConnects := by
  unfold dropAllPendingConnects
  generalize s.pendingConnects.keys = ids
  induction ids generalizing s with
  | nil => exact h
  | cons id ids ih => exact ih (dropPendingConnect_linked h id)

theorem dropAllPendingConnects_gone (id : UInt16) :
    s.dropAllPendingConnects.pendingConnects[id]? = none := by
  rw [dropAllPendingConnects, dropPendingConnects_lookup]
  split
  · rfl
  · next hmem =>
    rw [Std.TreeMap.mem_keys] at hmem
    exact Std.TreeMap.getElem?_eq_none hmem

theorem eventWatches_dropAllPendingConnects :
    s.dropAllPendingConnects.eventWatches = s.eventWatches := by
  unfold dropAllPendingConnects
  generalize s.pendingConnects.keys = ids
  induction ids generalizing s with
  | nil => rfl
  | cons id ids ih => rw [List.foldl_cons, ih, eventWatches_dropPendingConnect]

/-- The reactor after the watches of all workers are removed. -/
theorem removeWatches_lookup (ws : List (UInt16 × EventWatch)) (r : Reactor Handler) (n : Nat) :
    (ws.foldl (fun r kv => r.removeWatch kv.2.id) r).watches[n]? =
      if n ∈ ws.map (·.2.id) then none else r.watches[n]? := by
  have hwatches : (ws.foldl (fun r kv => r.removeWatch kv.2.id) r).watches =
      (ws.map (·.2.id)).foldl (fun m n => m.erase n) r.watches := by
    induction ws generalizing r with
    | nil => rfl
    | cons kv ws ih =>
      rw [List.foldl_cons, ih]
      rfl
  rw [hwatches, TreeTable.getElem?_foldl_erase]

theorem removeWatches_rest (ws : List (UInt16 × EventWatch)) (r : Reactor Handler) :
    (ws.foldl (fun r kv => r.removeWatch kv.2.id) r).timers = r.timers ∧
    (ws.foldl (fun r kv => r.removeWatch kv.2.id) r).nextWatchId = r.nextWatchId ∧
    (ws.foldl (fun r kv => r.removeWatch kv.2.id) r).nextTimerId = r.nextTimerId := by
  induction ws generalizing r with
  | nil => exact ⟨rfl, rfl, rfl⟩
  | cons kv ws ih => exact ih (r.removeWatch kv.2.id)

/-- The first half of `stopAllWorkers`. -/
theorem withoutWorkers_linked (h : Linked s) :
    Linked { s with
      reactor := s.eventWatches.foldl (fun r _ w => r.removeWatch w.id) s.reactor
      eventWatches := ∅ } := by
  rw [Std.TreeMap.foldl_eq_foldl_toList]
  obtain ⟨htimers, hnextWatch, hnextTimer⟩ := removeWatches_rest s.eventWatches.toList s.reactor
  have hlookup := removeWatches_lookup s.eventWatches.toList s.reactor
  generalize s.eventWatches.toList.foldl (fun r kv => r.removeWatch kv.2.id) s.reactor = r at *
  have hids : ∀ n : Nat, n ∈ s.eventWatches.toList.map (·.2.id) ↔
      ∃ (id : UInt16) (w : EventWatch), s.eventWatches[id]? = some w ∧ w.id = n := by
    intro n
    simp only [List.mem_map, Prod.exists, Std.TreeMap.mem_toList_iff_getElem?_eq_some]
  have hwatches : ∀ (n : Nat) (v : Watch Handler), r.watches[n]? = some v ↔
      s.reactor.watches[n]? = some v ∧ ¬ ∃ id, v.fn = .onWorkerReadable id := by
    intro n v
    rw [hlookup]
    by_cases hmem : n ∈ s.eventWatches.toList.map (·.2.id)
    · rw [if_pos hmem]
      refine iff_of_false (by simp) ?_
      rintro ⟨hreg, hother⟩
      obtain ⟨id, w, hid, rfl⟩ := (hids n).mp hmem
      have hworker := (h.watches w.id ⟨w.fd, .onWorkerReadable id, false⟩).mpr (heldWatch_worker hid)
      exact hother ⟨id, by rw [← Option.some.inj (hworker.symm.trans hreg)]⟩
    · rw [if_neg hmem]
      refine (and_iff_left_of_imp ?_).symm
      rintro hreg ⟨id, hfn⟩
      have hheld := (h.watches n v).mp hreg
      rw [hfn] at hheld
      obtain ⟨w, hid, hw⟩ := Option.map_eq_some_iff.mp hheld
      exact hmem ((hids n).mpr ⟨id, w, hid, (Prod.mk.inj hw).1⟩)
  exact
    { h with
      eventLive := by
        intro id w hid
        simp at hid
      watches := by
        refine h.watches.releaseAll (fun handler => ∃ id, handler = .onWorkerReadable id) hwatches ?_ ?_
        · rintro _ ⟨id, rfl⟩
          simp [heldWatch]
        · intro handler hother
          cases handler with
          | onWorkerReadable id => exact absurd ⟨id, rfl⟩ hother
          | _ => rfl
      timers := h.timers.congr (fun n => by rw [htimers]) (heldTimer_congr fun _ => rfl)
      oneShot := by rw [htimers]; exact h.oneShot
      watchBound := by
        intro n hn
        obtain ⟨v, hv⟩ := Option.ne_none_iff_exists'.mp hn
        rw [hnextWatch]
        exact h.watchBound (by rw [((hwatches n v).mp hv).1]; simp)
      timerBound := by rw [htimers, hnextTimer]; exact h.timerBound
      watchPos := by rw [hnextWatch]; exact h.watchPos
      timerPos := by rw [hnextTimer]; exact h.timerPos }

theorem stopAllWorkers_linked (h : Linked s) : Linked s.stopAllWorkers :=
  dropAllPendingConnects_linked (withoutWorkers_linked h)

theorem stopAllWorkers_gone (id : UInt16) :
    s.stopAllWorkers.eventWatches[id]? = none ∧ s.stopAllWorkers.pendingConnects[id]? = none := by
  refine ⟨?_, dropAllPendingConnects_gone id⟩
  rw [stopAllWorkers, eventWatches_dropAllPendingConnects]
  simp

theorem closeAllSockets_linked (h : Linked s)
    (hgone : ∀ id : UInt16, s.eventWatches[id]? = none ∧ s.pendingConnects[id]? = none) :
    Linked s.closeAllSockets :=
  { h.logged s.closeAllSockets.log with
    fdNonneg := by
      intro id fd hid
      simp [closeAllSockets] at hid
    eventLive := fun hid => nomatch (hgone _).1.symm.trans hid
    pendingLive := fun hid => nomatch (hgone _).2.symm.trans hid
    watches := h.watches.congr (fun _ => rfl) (heldWatch_congr rfl rfl (fun _ => rfl) fun _ => rfl)
    timers := h.timers.congr (fun _ => rfl) (heldTimer_congr fun _ => rfl) }

/-! ## Connects opened -/

/-- A pending connect is put under an id that has none; the reactor holds what it needs. -/
theorem Linked.withPending (h : Linked s) {id : UInt16} {p : PendingConnect}
    {reactor : Reactor Handler} (hlive : s.sockets[id]? = some p.fd)
    (hforward : ∀ w, p.forward = some w → w.fd = p.fd) (hcoherent : p.Coherent)
    (hwatches : Registered Watch.fn (fun n => reactor.watches[n]?)
      ({ s with reactor, pendingConnects := s.pendingConnects.insert id p } : ProtocolServer).heldWatch)
    (htimers : Registered (fun h => h) (fun n => reactor.timers[n]?.map Timer.fn)
      ({ s with reactor, pendingConnects := s.pendingConnects.insert id p } : ProtocolServer).heldTimer)
    (honeShot : ∀ {n : Nat} {t : Timer Handler}, reactor.timers[n]? = some t → t.periodic = false)
    (hwatchBound : ∀ {n : Nat}, reactor.watches[n]? ≠ none → n < reactor.nextWatchId)
    (htimerBound : ∀ {n : Nat}, reactor.timers[n]? ≠ none → n < reactor.nextTimerId)
    (hwatchPos : 0 < reactor.nextWatchId) (htimerPos : 0 < reactor.nextTimerId) :
    Linked { s with reactor, pendingConnects := s.pendingConnects.insert id p } := by
  have hcase : ∀ {id' : UInt16} {q : PendingConnect},
      (s.pendingConnects.insert id p)[id']? = some q →
        (id' = id ∧ p = q) ∨ s.pendingConnects[id']? = some q := by
    intro id' q hid'
    rw [TreeTable.getElem?_insert] at hid'
    split at hid'
    · next heq => exact .inl ⟨heq, Option.some.inj hid'⟩
    · exact .inr hid'
  exact
    { fdNonneg := h.fdNonneg
      eventLive := h.eventLive
      pendingLive := by
        intro id' q hid'
        rcases hcase hid' with ⟨rfl, rfl⟩ | hold
        · exact hlive
        · exact h.pendingLive hold
      forwardFd := by
        intro id' q w hid'
        rcases hcase hid' with ⟨rfl, rfl⟩ | hold
        · exact hforward w
        · exact h.forwardFd hold
      coherent := by
        intro id' q hid'
        rcases hcase hid' with ⟨rfl, rfl⟩ | hold
        · exact hcoherent
        · exact h.coherent hold
      watches := hwatches, timers := htimers, oneShot := honeShot, watchBound := hwatchBound
      timerBound := htimerBound, watchPos := hwatchPos, timerPos := htimerPos }

/-- An attempt under way takes a write watch. -/
theorem Linked.openWatched (h : Linked s) {id : UInt16} {p : PendingConnect}
    (hlive : s.sockets[id]? = some p.fd) (hforward : ∀ w, p.forward = some w → w.fd = p.fd)
    (hfree : s.pendingConnects[id]? = none) (hended : p.ended = .kInProgress)
    (hreport : p.report = kNoTimer) :
    Linked { s with
      reactor := (s.reactor.addWriteWatch p.fd (.onConnectWritable id)).1
      pendingConnects := s.pendingConnects.insert id
        { p with watch := (s.reactor.addWriteWatch p.fd (.onConnectWritable id)).2 } } := by
  have hadd : s.reactor.addWriteWatch p.fd (.onConnectWritable id) =
      ({ s.reactor with
          watches := s.reactor.watches.insert s.reactor.nextWatchId
            ⟨p.fd, .onConnectWritable id, true⟩
          nextWatchId := s.reactor.nextWatchId + 1 }, s.reactor.nextWatchId) :=
    if_neg (not_lt.mpr (h.fdNonneg hlive))
  have hwatches : ∀ n : Nat, (s.reactor.watches.insert s.reactor.nextWatchId
      (⟨p.fd, .onConnectWritable id, true⟩ : Watch Handler))[n]? =
        if n = s.reactor.nextWatchId then some ⟨p.fd, .onConnectWritable id, true⟩
        else s.reactor.watches[n]? := fun n => TreeTable.getElem?_insert _ n _
  have hpending : ∀ id' : UInt16,
      (s.pendingConnects.insert id { p with watch := s.reactor.nextWatchId })[id']? =
        if id' = id then some { p with watch := s.reactor.nextWatchId } else s.pendingConnects[id']? :=
    fun id' => TreeTable.getElem?_insert id id' _
  have hunused : s.reactor.watches[s.reactor.nextWatchId]? = none := by
    by_contra hused
    exact absurd (h.watchBound hused) (Nat.lt_irrefl _)
  rw [hadd]
  refine h.withPending hlive hforward (.inl ⟨hended, h.watchPos.ne', hreport⟩) ?_ ?_ h.oneShot ?_
    h.timerBound (Nat.succ_pos _) h.timerPos
  · refine h.watches.acquire hunused ?_ hwatches ?_ ?_
    · simp only [heldWatch, hfree, Option.bind_none]
    · simp only [heldWatch, hpending, if_true, Option.bind_some, if_pos hended]
    · intro handler hne
      cases handler with
      | onConnectWritable id' =>
        have hne' : id' ≠ id := fun heq => hne (by rw [heq])
        simp only [heldWatch, hpending, if_neg hne']
      | _ => rfl
  · refine h.timers.congr (fun _ => rfl) ?_
    intro handler
    cases handler with
    | reportFailedConnect id' =>
      by_cases heq : id' = id
      · simp only [heldTimer, hpending, heq, if_true, Option.bind_some, if_pos hended, hfree,
          Option.bind_none]
      · simp only [heldTimer, hpending, if_neg heq]
    | _ => rfl
  · intro n hn
    simp only [hwatches] at hn
    split at hn
    · next heq => exact Nat.lt_succ_of_le heq.le
    · exact Nat.lt_succ_of_lt (h.watchBound hn)

/-- An attempt that failed at once takes a timer. -/
theorem Linked.openTimed (h : Linked s) {id : UInt16} {p : PendingConnect} (now : Int)
    (hlive : s.sockets[id]? = some p.fd) (hforward : ∀ w, p.forward = some w → w.fd = p.fd)
    (hfree : s.pendingConnects[id]? = none) (hended : p.ended ≠ .kInProgress)
    (hfailed : p.ended ≠ .kEstablished) (hwatch : p.watch = kNoWatch) :
    Linked { s with
      reactor := (s.reactor.armOnce now 0 (.reportFailedConnect id)).1
      pendingConnects := s.pendingConnects.insert id
        { p with report := (s.reactor.armOnce now 0 (.reportFailedConnect id)).2 } } := by
  have hpending : ∀ id' : UInt16,
      (s.pendingConnects.insert id { p with report := s.reactor.nextTimerId })[id']? =
        if id' = id then some { p with report := s.reactor.nextTimerId }
        else s.pendingConnects[id']? := fun id' => TreeTable.getElem?_insert id id' _
  have htimers : ∀ n : Nat, (s.reactor.armOnce now 0 (.reportFailedConnect id)).1.timers[n]? =
      if n = s.reactor.nextTimerId then some ⟨now + 0, 0, .reportFailedConnect id, false⟩
      else s.reactor.timers[n]? := fun n => TreeTable.getElem?_insert _ n _
  have hunused : s.reactor.timers[s.reactor.nextTimerId]? = none := by
    by_contra hused
    exact absurd (h.timerBound hused) (Nat.lt_irrefl _)
  refine h.withPending hlive hforward (.inr ⟨hended, hfailed, hwatch, h.timerPos.ne'⟩) ?_ ?_ ?_
    h.watchBound ?_ h.watchPos (Nat.succ_pos _)
  · refine h.watches.congr (fun _ => rfl) ?_
    intro handler
    cases handler with
    | onConnectWritable id' =>
      by_cases heq : id' = id
      · simp only [heldWatch, Reactor.armOnce, Reactor.arm, hpending, heq, if_true,
          Option.bind_some, if_neg hended, hfree, Option.bind_none]
      · simp only [heldWatch, Reactor.armOnce, Reactor.arm, hpending, if_neg heq]
    | _ => rfl
  · refine h.timers.acquire (v := .reportFailedConnect id) (n := s.reactor.nextTimerId)
      (by rw [hunused]; rfl) ?_ ?_ ?_ ?_
    · simp only [heldTimer, hfree, Option.bind_none]
    · intro n
      rw [htimers]
      split <;> rfl
    · simp only [heldTimer, Reactor.armOnce, Reactor.arm, hpending, if_true, Option.bind_some,
        if_neg hended]
    · intro handler hne
      cases handler with
      | reportFailedConnect id' =>
        have hne' : id' ≠ id := fun heq => hne (by rw [heq])
        simp only [heldTimer, Reactor.armOnce, Reactor.arm, hpending, if_neg hne']
      | _ => rfl
  · intro n t hn
    rw [htimers] at hn
    split at hn
    · rw [← Option.some.inj hn]
    · exact h.oneShot hn
  · intro n hn
    rw [htimers] at hn
    split at hn
    · next heq => exact Nat.lt_succ_of_le heq.le
    · exact Nat.lt_succ_of_lt (h.timerBound hn)

theorem openPending_linked (h : Linked s) {req : ConnectReq} {fd : Int} (serviceId : UInt16)
    (peer : Endpoint) (hlive : s.sockets[req.socketId]? = some fd)
    (hfree : s.pendingConnects[req.socketId]? = none) (hopen : a.connectStartV4 ≠ .kEstablished) :
    Linked (s.openPending a req fd serviceId peer) := by
  have hstopped := stopWorker_linked h req.socketId
  have hlive' : (s.stopWorker req.socketId).sockets[req.socketId]? = some fd := by
    rw [sockets_stopWorker]
    exact hlive
  have hfree' : (s.stopWorker req.socketId).pendingConnects[req.socketId]? = none := by
    rw [pendingConnects_stopWorker]
    exact hfree
  have hforward : ∀ w, s.eventWatches[req.socketId]? = some w → w.fd = fd := by
    intro w hw
    exact Option.some.inj ((h.eventLive hw).symm.trans hlive)
  unfold openPending
  simp only
  split
  · exact hstopped.openWatched (p := { fd, serviceId, peer, forward := s.eventWatches[req.socketId]? })
      hlive' hforward hfree' rfl rfl
  · next hended =>
    exact hstopped.openTimed
      (p := { fd, serviceId, peer, forward := s.eventWatches[req.socketId]?,
              ended := a.connectStartV4 })
      a.now hlive' hforward hfree' hended hopen rfl

end ProtocolServer

end Tc8Harness.Testability
