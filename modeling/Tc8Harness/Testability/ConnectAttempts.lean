import Tc8Harness.Testability.ConnectView
import Tc8Harness.Testability.WatchRuns

/-!
# The handlers of a CONNECT attempt

The reactor runs a handler for an attempt only while the attempt is in the state the handler is for:
the write watch while it is under way, the report timer once it is over. `Attempts` says so, with the
bound on the queue. It is half of what `Linked` says, and holds in every run (`run_attempts`): it does not
matter to it whether ids are reused or a worker's watch is left behind.
-/

namespace Tc8Harness.Testability

open Someip

namespace ProtocolServer

variable {s s' : ProtocolServer} {a : Answers} {id : UInt16}

/-! ## The reactor runs what an attempt is for -/

/-- The bytes of a queue. -/
def queueBytes (sends : List QueuedSend) : Nat := (sends.map (·.payload.length)).sum

/-- A write watch is an attempt's that is under way and a timer one's that is over; attempts are of
live sockets and their queues within the limit. -/
structure Attempts (s : ProtocolServer) : Prop where
  live : ∀ {id : UInt16} {p : PendingConnect}, s.pendingConnects[id]? = some p → s.sockets[id]? ≠ none
  failed : ∀ {id : UInt16} {p : PendingConnect},
    s.pendingConnects[id]? = some p → p.ended ≠ .kEstablished
  bytes : ∀ {id : UInt16} {p : PendingConnect}, s.pendingConnects[id]? = some p →
    p.queuedBytes = queueBytes p.sends ∧ p.queuedBytes ≤ kMaxQueuedConnectSend
  watch : ∀ {n : Nat} {v : Watch Handler}, s.reactor.watches[n]? = some v →
    n ≠ kNoWatch ∧ n < s.reactor.nextWatchId ∧ (∀ id, v.fn ≠ .reportFailedConnect id) ∧
    ∀ id, v.fn = .onConnectWritable id →
      ∃ p, s.pendingConnects[id]? = some p ∧ p.ended = .kInProgress ∧ p.watch = n
  timer : ∀ {n : Nat} {t : Timer Handler}, s.reactor.timers[n]? = some t →
    n ≠ kNoTimer ∧ n < s.reactor.nextTimerId ∧ t.periodic = false ∧
    ∃ id p, t.fn = .reportFailedConnect id ∧ s.pendingConnects[id]? = some p ∧
      p.ended ≠ .kInProgress ∧ p.report = n
  watchPos : 0 < s.reactor.nextWatchId
  timerPos : 0 < s.reactor.nextTimerId

theorem Attempts.logged (h : Attempts s) (log : List Action) : Attempts { s with log := log } :=
  { h with }

theorem Attempts.act (h : Attempts s) (action : Action) : Attempts (s.act action) := h.logged _

/-- Watches that are not an attempt's may go. -/
theorem Attempts.fewerWatches (h : Attempts s) {reactor : Reactor Handler}
    {eventWatches : Std.TreeMap UInt16 EventWatch}
    (hwatches : ∀ {n : Nat} {v : Watch Handler},
      reactor.watches[n]? = some v → s.reactor.watches[n]? = some v)
    (htimers : reactor.timers = s.reactor.timers)
    (hnextWatch : reactor.nextWatchId = s.reactor.nextWatchId)
    (hnextTimer : reactor.nextTimerId = s.reactor.nextTimerId) :
    Attempts { s with reactor, eventWatches } :=
  { h with
    watch := fun hn => by rw [hnextWatch]; exact h.watch (hwatches hn)
    timer := fun hn => by rw [hnextTimer]; exact h.timer (by rw [← htimers]; exact hn)
    watchPos := by rw [hnextWatch]; exact h.watchPos
    timerPos := by rw [hnextTimer]; exact h.timerPos }

theorem stopWorker_attempts (h : Attempts s) (id : UInt16) : Attempts (s.stopWorker id) := by
  unfold stopWorker
  split
  · exact h
  · refine h.fewerWatches ?_ rfl rfl rfl
    intro n v hn
    rw [Reactor.removeWatch, TreeTable.getElem?_erase] at hn
    split at hn
    · cases hn
    · exact hn

theorem armEventWatch_attempts (h : Attempts s) (id : UInt16) (w : EventWatch) :
    Attempts (s.armEventWatch id w) := by
  unfold armEventWatch Reactor.addWatch Reactor.addWatchFor
  split
  · exact h.fewerWatches (fun hn => hn) rfl rfl rfl
  · exact
      { h with
        watch := by
          intro n v hn
          simp only [TreeTable.getElem?_insert] at hn
          split at hn
          · next heq =>
            rw [← Option.some.inj hn, heq]
            exact ⟨h.watchPos.ne', Nat.lt_succ_self _, nofun, nofun⟩
          · obtain ⟨hpos, hbound, hrest⟩ := h.watch hn
            exact ⟨hpos, Nat.lt_succ_of_lt hbound, hrest⟩
        watchPos := Nat.succ_pos _ }

/-- An attempt goes, with the watch and the timer that are its own. -/
theorem Attempts.without (h : Attempts s) {id : UInt16} {reactor : Reactor Handler}
    {pending : Std.TreeMap UInt16 PendingConnect}
    (hpending : ∀ id' : UInt16, pending[id']? = if id' = id then none else s.pendingConnects[id']?)
    (hwatches : ∀ {n : Nat} {v : Watch Handler}, reactor.watches[n]? = some v →
      s.reactor.watches[n]? = some v ∧ v.fn ≠ .onConnectWritable id)
    (htimers : ∀ {n : Nat} {t : Timer Handler}, reactor.timers[n]? = some t →
      s.reactor.timers[n]? = some t ∧ t.fn ≠ .reportFailedConnect id)
    (hnextWatch : reactor.nextWatchId = s.reactor.nextWatchId)
    (hnextTimer : reactor.nextTimerId = s.reactor.nextTimerId) :
    Attempts { s with reactor, pendingConnects := pending } := by
  have hold : ∀ {id' : UInt16} {q : PendingConnect},
      pending[id']? = some q → s.pendingConnects[id']? = some q := by
    intro id' q hid'
    rw [hpending] at hid'
    split at hid'
    · nomatch hid'
    · exact hid'
  exact
    { live := fun hid' => h.live (hold hid')
      failed := fun hid' => h.failed (hold hid')
      bytes := fun hid' => h.bytes (hold hid')
      watch := by
        intro n v hn
        obtain ⟨hn', hother⟩ := hwatches hn
        obtain ⟨hpos, hbound, hreport, hconnect⟩ := h.watch hn'
        refine ⟨hpos, by rw [hnextWatch]; exact hbound, hreport, fun id' hfn => ?_⟩
        have hne : id' ≠ id := by
          rintro rfl
          exact hother hfn
        rw [hpending, if_neg hne]
        exact hconnect id' hfn
      timer := by
        intro n t hn
        obtain ⟨hn', hother⟩ := htimers hn
        obtain ⟨hpos, hbound, hperiodic, id', p, hfn, hp, hrest⟩ := h.timer hn'
        have hne : id' ≠ id := by
          rintro rfl
          exact hother hfn
        refine ⟨hpos, by rw [hnextTimer]; exact hbound, hperiodic, id', p, hfn, ?_, hrest⟩
        rw [hpending, if_neg hne]
        exact hp
      watchPos := by rw [hnextWatch]; exact h.watchPos
      timerPos := by rw [hnextTimer]; exact h.timerPos }

/-- The watches left when an attempt's own is removed. -/
theorem Attempts.removeOwn (h : Attempts s) {id : UInt16} {p : PendingConnect}
    (hp : s.pendingConnects[id]? = some p) {n : Nat} {v : Watch Handler}
    (hn : (if p.watch ≠ kNoWatch then s.reactor.removeWatch p.watch else s.reactor).watches[n]? =
      some v) : s.reactor.watches[n]? = some v ∧ v.fn ≠ .onConnectWritable id := by
  have hstays : s.reactor.watches[n]? = some v := by
    split at hn
    · rw [Reactor.removeWatch, TreeTable.getElem?_erase] at hn
      split at hn
      · cases hn
      · exact hn
    · exact hn
  refine ⟨hstays, fun hfn => ?_⟩
  obtain ⟨hpos, -, -, hconnect⟩ := h.watch hstays
  obtain ⟨q, hq, -, hwatch⟩ := hconnect id hfn
  obtain rfl := Option.some.inj (hp.symm.trans hq)
  rw [if_pos (by rw [hwatch]; exact hpos), Reactor.removeWatch, TreeTable.getElem?_erase,
    if_pos hwatch.symm] at hn
  cases hn

theorem dropPendingConnect_attempts (h : Attempts s) (id : UInt16) :
    Attempts (s.dropPendingConnect id) := by
  unfold dropPendingConnect
  split
  · exact h
  next p hp =>
  refine h.without (fun id' => TreeTable.getElem?_erase id id') ?_ ?_ ?_ ?_
  · intro n v hn
    refine h.removeOwn hp ?_
    split at hn <;> exact hn
  · intro n t hn
    have hstays : s.reactor.timers[n]? = some t := by
      split at hn
      · rw [Reactor.cancel, TreeTable.getElem?_erase] at hn
        split at hn
        · nomatch hn
        · split at hn <;> exact hn
      · split at hn <;> exact hn
    refine ⟨hstays, fun hfn => ?_⟩
    obtain ⟨hpos, -, -, id', q, hfn', hq, -, hreport⟩ := h.timer hstays
    obtain rfl := Handler.reportFailedConnect.inj (hfn.symm.trans hfn')
    obtain rfl := Option.some.inj (hp.symm.trans hq)
    rw [if_pos (by rw [hreport]; exact hpos), Reactor.cancel, TreeTable.getElem?_erase,
      if_pos hreport.symm] at hn
    nomatch hn
  · split <;> split <;> rfl
  · split <;> split <;> rfl

theorem dropAllPendingConnects_attempts (h : Attempts s) : Attempts s.dropAllPendingConnects := by
  unfold dropAllPendingConnects
  generalize s.pendingConnects.keys = ids
  induction ids generalizing s with
  | nil => exact h
  | cons id ids ih => exact ih (dropPendingConnect_attempts h id)

theorem stopAllWorkers_attempts (h : Attempts s) : Attempts s.stopAllWorkers := by
  refine dropAllPendingConnects_attempts ?_
  rw [Std.TreeMap.foldl_eq_foldl_toList]
  obtain ⟨htimers, hnextWatch, hnextTimer⟩ := removeWatches_rest s.eventWatches.toList s.reactor
  refine h.fewerWatches ?_ htimers hnextWatch hnextTimer
  intro n v hn
  rw [removeWatches_lookup] at hn
  split at hn
  · nomatch hn
  · exact hn

/-- An attempt that keeps its handles and its state. -/
theorem Attempts.replace (h : Attempts s) {id : UInt16} {p p' : PendingConnect}
    (hp : s.pendingConnects[id]? = some p) (hended : p'.ended = p.ended) (hwatch : p'.watch = p.watch)
    (hreport : p'.report = p.report)
    (hbytes : p'.queuedBytes = queueBytes p'.sends ∧ p'.queuedBytes ≤ kMaxQueuedConnectSend) :
    Attempts { s with pendingConnects := s.pendingConnects.insert id p' } := by
  have hpending : ∀ id' : UInt16, (s.pendingConnects.insert id p')[id']? =
      if id' = id then some p' else s.pendingConnects[id']? :=
    fun id' => TreeTable.getElem?_insert id id' _
  have hnew : ∀ {id' : UInt16} {q : PendingConnect}, (s.pendingConnects.insert id p')[id']? = some q →
      (id' = id ∧ p' = q) ∨ s.pendingConnects[id']? = some q := by
    intro id' q hid'
    rw [hpending] at hid'
    split at hid'
    · next heq => exact .inl ⟨heq, Option.some.inj hid'⟩
    · exact .inr hid'
  -- what an old attempt was in, the one in its place is in
  have hkept : ∀ {id' : UInt16} {q : PendingConnect}, s.pendingConnects[id']? = some q →
      ∃ q', (s.pendingConnects.insert id p')[id']? = some q' ∧ q'.ended = q.ended ∧
        q'.watch = q.watch ∧ q'.report = q.report := by
    intro id' q hq
    rw [hpending]
    by_cases heq : id' = id
    · subst heq
      obtain rfl := Option.some.inj (hp.symm.trans hq)
      exact ⟨p', if_pos rfl, hended, hwatch, hreport⟩
    · exact ⟨q, by rw [if_neg heq, hq], rfl, rfl, rfl⟩
  exact
    { live := by
        intro id' q hid'
        rcases hnew hid' with ⟨rfl, -⟩ | hold
        · exact h.live hp
        · exact h.live hold
      failed := by
        intro id' q hid'
        rcases hnew hid' with ⟨rfl, rfl⟩ | hold
        · rw [hended]
          exact h.failed hp
        · exact h.failed hold
      bytes := by
        intro id' q hid'
        rcases hnew hid' with ⟨rfl, rfl⟩ | hold
        · exact hbytes
        · exact h.bytes hold
      watch := by
        intro n v hn
        obtain ⟨hpos, hbound, hother, hconnect⟩ := h.watch hn
        refine ⟨hpos, hbound, hother, fun id' hfn => ?_⟩
        obtain ⟨q, hq, hq₁, hq₂⟩ := hconnect id' hfn
        obtain ⟨q', hq', he, hw, -⟩ := hkept hq
        exact ⟨q', hq', he.trans hq₁, hw.trans hq₂⟩
      timer := by
        intro n t hn
        obtain ⟨hpos, hbound, hperiodic, id', q, hfn, hq, hq₁, hq₂⟩ := h.timer hn
        obtain ⟨q', hq', he, -, hr⟩ := hkept hq
        exact ⟨hpos, hbound, hperiodic, id', q', hfn, hq', by rw [he]; exact hq₁, hr.trans hq₂⟩
      watchPos := h.watchPos
      timerPos := h.timerPos }

/-- A new attempt, with the watch or the timer made for it. -/
theorem Attempts.withNew (h : Attempts s) {id : UInt16} {p : PendingConnect} {reactor : Reactor Handler}
    (hlive : s.sockets[id]? ≠ none) (hfree : s.pendingConnects[id]? = none)
    (hfailed : p.ended ≠ .kEstablished) (hsends : p.sends = []) (hbytes : p.queuedBytes = 0)
    (hwatches : ∀ {n : Nat} {v : Watch Handler}, reactor.watches[n]? = some v →
      (s.reactor.watches[n]? = some v) ∨ (n = s.reactor.nextWatchId ∧ n < reactor.nextWatchId ∧
        v.fn = .onConnectWritable id ∧ p.ended = .kInProgress ∧ p.watch = n))
    (htimers : ∀ {n : Nat} {t : Timer Handler}, reactor.timers[n]? = some t →
      (s.reactor.timers[n]? = some t) ∨ (n = s.reactor.nextTimerId ∧ n < reactor.nextTimerId ∧
        t.periodic = false ∧ t.fn = .reportFailedConnect id ∧ p.ended ≠ .kInProgress ∧ p.report = n))
    (hnextWatch : s.reactor.nextWatchId ≤ reactor.nextWatchId)
    (hnextTimer : s.reactor.nextTimerId ≤ reactor.nextTimerId) :
    Attempts { s with reactor, pendingConnects := s.pendingConnects.insert id p } := by
  have hpending : ∀ id' : UInt16, (s.pendingConnects.insert id p)[id']? =
      if id' = id then some p else s.pendingConnects[id']? :=
    fun id' => TreeTable.getElem?_insert id id' _
  have hnew : ∀ {id' : UInt16} {q : PendingConnect}, (s.pendingConnects.insert id p)[id']? = some q →
      (id' = id ∧ p = q) ∨ s.pendingConnects[id']? = some q := by
    intro id' q hid'
    rw [hpending] at hid'
    split at hid'
    · next heq => exact .inl ⟨heq, Option.some.inj hid'⟩
    · exact .inr hid'
  have hkept : ∀ {id' : UInt16} {q : PendingConnect}, s.pendingConnects[id']? = some q →
      (s.pendingConnects.insert id p)[id']? = some q := by
    intro id' q hq
    rw [hpending, if_neg, hq]
    rintro rfl
    exact nomatch hfree.symm.trans hq
  exact
    { live := by
        intro id' q hid'
        rcases hnew hid' with ⟨rfl, -⟩ | hold
        · exact hlive
        · exact h.live hold
      failed := by
        intro id' q hid'
        rcases hnew hid' with ⟨-, rfl⟩ | hold
        · exact hfailed
        · exact h.failed hold
      bytes := by
        intro id' q hid'
        rcases hnew hid' with ⟨-, rfl⟩ | hold
        · rw [hsends, hbytes]
          exact ⟨rfl, Nat.zero_le _⟩
        · exact h.bytes hold
      watch := by
        intro n v hn
        rcases hwatches hn with hold | ⟨rfl, hbound, hfn, hended, hwatch⟩
        · obtain ⟨hpos, hbound, hother, hconnect⟩ := h.watch hold
          refine ⟨hpos, hbound.trans_le hnextWatch, hother, fun id' hfn => ?_⟩
          obtain ⟨q, hq, hrest⟩ := hconnect id' hfn
          exact ⟨q, hkept hq, hrest⟩
        · refine ⟨h.watchPos.ne', hbound, ?_, ?_⟩
          · rw [hfn]
            exact nofun
          · intro id' hfn'
            obtain rfl := Handler.onConnectWritable.inj (hfn.symm.trans hfn')
            exact ⟨p, by rw [hpending, if_pos rfl], hended, hwatch⟩
      timer := by
        intro n t hn
        rcases htimers hn with hold | ⟨rfl, hbound, hperiodic, hfn, hended, hreport⟩
        · obtain ⟨hpos, hbound, hperiodic, id', q, hfn, hq, hrest⟩ := h.timer hold
          exact ⟨hpos, hbound.trans_le hnextTimer, hperiodic, id', q, hfn, hkept hq, hrest⟩
        · exact ⟨h.timerPos.ne', hbound, hperiodic, id, p, hfn, by rw [hpending, if_pos rfl], hended,
            hreport⟩
      watchPos := h.watchPos.trans_le hnextWatch
      timerPos := h.timerPos.trans_le hnextTimer }

theorem openPending_attempts (h : Attempts s) {req : ConnectReq} {fd : Int} (serviceId : UInt16)
    (peer : Endpoint) (hlive : s.sockets[req.socketId]? = some fd)
    (hfree : s.pendingConnects[req.socketId]? = none) (hopen : a.connectStartV4 ≠ .kEstablished) :
    Attempts (s.openPending a req fd serviceId peer) := by
  have hstopped := stopWorker_attempts h req.socketId
  have hlive' : (s.stopWorker req.socketId).sockets[req.socketId]? ≠ none := by
    rw [sockets_stopWorker, hlive]
    exact Option.some_ne_none _
  have hfree' : (s.stopWorker req.socketId).pendingConnects[req.socketId]? = none := by
    rw [pendingConnects_stopWorker]
    exact hfree
  unfold openPending
  generalize s.stopWorker req.socketId = stopped at *
  simp only
  split
  · refine hstopped.withNew hlive' hfree' nofun rfl rfl ?_ (fun hn => ?_) ?_ ?_
    · intro n v hn
      simp only [Reactor.addWriteWatch, Reactor.addWatchFor] at hn ⊢
      split at hn
      · exact .inl hn
      · next hfd =>
        simp only [TreeTable.getElem?_insert] at hn
        rw [if_neg hfd]
        split at hn
        · next heq =>
          rw [← Option.some.inj hn, heq]
          exact .inr ⟨rfl, Nat.lt_succ_self _, rfl, trivial, rfl⟩
        · exact .inl hn
    · simp only [Reactor.addWriteWatch, Reactor.addWatchFor] at hn
      split at hn <;> exact .inl hn
    · simp only [Reactor.addWriteWatch, Reactor.addWatchFor]
      split
      · exact le_refl _
      · exact Nat.le_succ _
    · simp only [Reactor.addWriteWatch, Reactor.addWatchFor]
      split <;> exact le_refl _
  · next hended =>
    refine hstopped.withNew hlive' hfree' hopen rfl rfl (fun hn => .inl hn) ?_ (le_refl _)
      (Nat.le_succ _)
    intro n t hn
    simp only [Reactor.armOnce, Reactor.arm, TreeTable.getElem?_insert] at hn
    split at hn
    · next heq =>
      rw [← Option.some.inj hn, heq]
      exact .inr ⟨rfl, Nat.lt_succ_self _, rfl, rfl, hended, rfl⟩
    · exact .inl hn

/-! ## Handlers keep it -/

theorem settleMode_attempts (h : Attempts s) (id : UInt16) (fd : Int) :
    Attempts (s.settleMode id fd) := by
  unfold settleMode
  split
  · exact h
  · exact h.act _

theorem connectTcp_attempts (h : Attempts s) (dat : List UInt8) (serviceId : UInt16)
    (peer : Endpoint) : Attempts (s.connectTcp a dat serviceId peer).1 := by
  unfold connectTcp
  split
  · exact h
  split
  · exact h
  next fd hlive =>
  split
  · exact h
  next hpending =>
  simp only
  split
  · exact settleMode_attempts (h.act _) _ _
  · exact settleMode_attempts (h.act _) _ _
  · exact settleMode_attempts (h.act _) _ _
  · next hopen _ _ =>
    exact openPending_attempts (h.act _) serviceId peer hlive
      (Std.TreeMap.getElem?_eq_none (by rwa [Std.TreeMap.mem_iff_contains])) hopen

theorem listenAndAcceptTcp_attempts (h : Attempts s) (dat : List UInt8) (serviceId : UInt16)
    (peer : Endpoint) : Attempts (s.listenAndAcceptTcp a dat serviceId peer).1 := by
  unfold listenAndAcceptTcp
  split
  · exact h
  simp only
  split
  · exact h
  split
  · exact h.act _
  · exact armEventWatch_attempts ((stopWorker_attempts (h.act _) _).act _) _ _

theorem sendDataTcp_attempts (h : Attempts s) (dat : List UInt8) :
    Attempts (s.sendDataTcp a dat).1 := by
  unfold sendDataTcp
  split
  · exact h
  split
  · exact h
  simp only
  split
  · next p hp =>
    split
    · exact h
    · next hfits =>
      refine h.replace hp rfl rfl rfl ⟨?_, not_lt.mp hfits⟩
      rw [(h.bytes hp).1]
      simp [queueBytes]
  · exact h.act _

theorem shutdownSocket_attempts (h : Attempts s) (dat : List UInt8) :
    Attempts (s.shutdownSocket a dat).1 := by
  unfold shutdownSocket
  split
  · exact h
  split
  · exact h
  split
  · exact h
  · exact (dropPendingConnect_attempts h _).act _

theorem receiveAndForward_attempts (h : Attempts s) (dat : List UInt8) (serviceId : UInt16)
    (peer : Endpoint) (udp : Bool) : Attempts (s.receiveAndForward a dat serviceId peer udp).1 := by
  unfold receiveAndForward
  split
  · exact h
  split
  · exact h
  simp only
  split
  · next p hp => exact h.replace hp rfl rfl rfl (h.bytes (p := p) hp)
  · refine armEventWatch_attempts ((stopWorker_attempts ?_ _).act _) _ _
    exact ((h.act _).logged _).act _

/-- Sockets may go whose attempts are gone. -/
theorem Attempts.fewerSockets (h : Attempts s) {sockets : Std.TreeMap UInt16 Int}
    (hlive : ∀ {id : UInt16} {p : PendingConnect},
      s.pendingConnects[id]? = some p → sockets[id]? ≠ none) : Attempts { s with sockets } :=
  { h with live := hlive }

theorem eraseSocket_attempts (h : Attempts s) (id : UInt16) (abort : Bool) :
    Attempts (s.eraseSocket id abort).1 := by
  have hdropped := dropPendingConnect_attempts (stopWorker_attempts h id) id
  unfold eraseSocket
  simp only
  split
  · exact hdropped
  · refine (hdropped.fewerSockets ?_).act _
    intro id' p hp
    rw [TreeTable.getElem?_erase, if_neg]
    · exact hdropped.live hp
    · rintro rfl
      rw [dropPendingConnect_gone] at hp
      nomatch hp

theorem Serves.attempts (hs : Serves s s') (h : Attempts s) : Attempts s' := by
  rcases hs with ⟨log, rfl⟩ | ⟨log, log', fd, -, rfl⟩
  · exact h.logged log
  · refine { h with live := ?_ }
    intro id p hp
    show (s.sockets.insert s.nextSocketId fd)[id]? ≠ none
    rw [TreeTable.getElem?_insert]
    split
    · exact Option.some_ne_none _
    · exact h.live hp

theorem perform_attempts (h : Attempts s) {req : Request} (p : Primitive) (hp : p ≠ .other) :
    Attempts (s.perform a req p).1 := by
  cases p with
  | endTest =>
    exact { stopAllWorkers_attempts h with
      live := fun hp => nomatch ((stopAllWorkers_gone _).2).symm.trans hp }
  | createAndBind tcp => exact (createAndBind_serves req.dat tcp).attempts h
  | connect => exact connectTcp_attempts h _ _ _
  | listenAndAccept => exact listenAndAcceptTcp_attempts h _ _ _
  | sendDataTcp => exact sendDataTcp_attempts h _
  | closeSocket =>
    simp only [perform, noDat, closeSocket]
    split
    · exact h
    · exact eraseSocket_attempts h _ _
  | shutdown => exact shutdownSocket_attempts h _
  | receiveAndForward udp => exact receiveAndForward_attempts h _ _ _ _
  | other => exact absurd rfl hp

theorem onWorkerReadable_attempts (h : Attempts s) (id : UInt16) :
    Attempts (s.onWorkerReadable a id) := by
  unfold onWorkerReadable
  split
  · exact h
  next w hw =>
  have hserved := (serveOne_spec (s := s) (a := a) w id).server.attempts h
  simp only
  split
  · exact hserved.fewerWatches (fun hn => hn) rfl rfl rfl
  · refine hserved.fewerWatches ?_ rfl rfl rfl
    intro n v hn
    rw [Reactor.removeWatch, TreeTable.getElem?_erase] at hn
    split at hn
    · cases hn
    · exact hn

/-- What `finishConnect` does once the attempt is off the tables. -/
theorem finishConnect_attempts {id : UInt16} {p : PendingConnect} (stop : ConnectProgress)
    (hp : s.pendingConnects[id]? = some p) (h : Attempts (s.closePending id p)) :
    Attempts (s.finishConnect id stop) := by
  unfold finishConnect
  simp only [hp, issueSends_eq]
  split
  · split
    · refine Attempts.logged ?_ _
      split
      · exact h.act _
      · exact h
    · refine armEventWatch_attempts (Attempts.logged ?_ _) _ _
      split
      · exact h.act _
      · exact h
  · split
    · exact (h.act _).act _
    · exact ((h.act _).act _).act _

theorem onConnectWritable_attempts (h : Attempts s) {id : UInt16} {p : PendingConnect}
    (hp : s.pendingConnects[id]? = some p) (hended : p.ended = .kInProgress) :
    Attempts (s.onConnectWritable a id) := by
  unfold onConnectWritable
  simp only [hp]
  split
  · refine finishConnect_attempts (p := p) _ hp ?_
    refine (h.act _).without (fun id' => TreeTable.getElem?_erase id id')
      (fun hn => (h.act _).removeOwn hp hn) ?_ ?_ ?_
    · intro n t hn
      have hstays : s.reactor.timers[n]? = some t := by
        split at hn <;> exact hn
      refine ⟨hstays, fun hfn => ?_⟩
      obtain ⟨-, -, -, id', q, hfn', hq, hover, -⟩ := h.timer hstays
      obtain rfl := Handler.reportFailedConnect.inj (hfn.symm.trans hfn')
      obtain rfl := Option.some.inj (hp.symm.trans hq)
      exact hover hended
    · split <;> rfl
    · split <;> rfl
  · exact h.act _

/-- The report of a failed attempt, with its timer off the table already. -/
theorem reportFailedConnect_attempts (h : Attempts s) {id : UInt16} {p : PendingConnect} (now : Int)
    (hp : s.pendingConnects[id]? = some p) (hended : p.ended ≠ .kInProgress) {t : Timer Handler}
    (ht : s.reactor.timers[p.report]? = some t) :
    Attempts (reportFailedConnect { s with reactor := s.reactor.expire now p.report } id) := by
  have hexpire : s.reactor.expire now p.report = s.reactor.cancel p.report := by
    obtain ⟨-, -, hperiodic, -⟩ := h.timer ht
    simp only [Reactor.expire, ht, hperiodic, Bool.false_eq_true, if_false]
    rfl
  unfold reportFailedConnect
  simp only [hp, hexpire]
  refine finishConnect_attempts (p := { p with report := kNoTimer }) _
    (by rw [TreeTable.getElem?_insert, if_pos rfl]) ?_
  refine @Attempts.without _ h id _ _ ?_ ?_ ?_ ?_ ?_
  · intro id'
    simp only [TreeTable.getElem?_erase, TreeTable.getElem?_insert]
    split <;> rfl
  · intro n v hn
    have hstays : s.reactor.watches[n]? = some v := by
      split at hn
      · rw [Reactor.removeWatch, TreeTable.getElem?_erase] at hn
        split at hn
        · cases hn
        · exact hn
      · exact hn
    refine ⟨hstays, fun hfn => ?_⟩
    obtain ⟨-, -, -, hconnect⟩ := h.watch hstays
    obtain ⟨q, hq, hopen, -⟩ := hconnect id hfn
    obtain rfl := Option.some.inj (hp.symm.trans hq)
    exact hended hopen
  · intro n t' hn
    have hcancelled : (s.reactor.cancel p.report).timers[n]? = some t' := by
      split at hn <;> exact hn
    rw [Reactor.cancel, TreeTable.getElem?_erase] at hcancelled
    split at hcancelled
    · cases hcancelled
    · next hne =>
      refine ⟨hcancelled, fun hfn => ?_⟩
      obtain ⟨-, -, -, id', q, hfn', hq, -, hreport⟩ := h.timer hcancelled
      obtain rfl := Handler.reportFailedConnect.inj (hfn.symm.trans hfn')
      obtain rfl := Option.some.inj (hp.symm.trans hq)
      exact hne hreport.symm
  · split <;> rfl
  · split <;> rfl

/-! ## Steps -/

/-- What a watch that fires is for. -/
theorem Attempts.fires_watch (h : Attempts s) {n : Nat} {handler : Handler}
    (hfires : s.fires (.watch n) = some handler) :
    (∀ id, handler ≠ .reportFailedConnect id) ∧ ∀ id, handler = .onConnectWritable id →
      ∃ p, s.pendingConnects[id]? = some p ∧ p.ended = .kInProgress := by
  obtain ⟨v, hv, rfl⟩ := Option.map_eq_some_iff.mp hfires
  obtain ⟨-, -, hother, hconnect⟩ := h.watch hv
  refine ⟨hother, fun id hfn => ?_⟩
  obtain ⟨p, hp, hended, -⟩ := hconnect id hfn
  exact ⟨p, hp, hended⟩

/-- What a timer that fires is for. -/
theorem Attempts.fires_timer (h : Attempts s) {n : Nat} {handler : Handler}
    (hfires : s.fires (.timer n) = some handler) :
    ∃ id p t, handler = .reportFailedConnect id ∧ s.pendingConnects[id]? = some p ∧
      p.ended ≠ .kInProgress ∧ p.report = n ∧ s.reactor.timers[n]? = some t := by
  obtain ⟨t, ht, rfl⟩ := Option.map_eq_some_iff.mp hfires
  obtain ⟨-, -, -, id, p, hfn, hp, hended, hreport⟩ := h.timer ht
  exact ⟨id, p, t, hfn, hp, hended, hreport, ht⟩

theorem Attempts.entered_eq (h : Attempts s) {i : Input} {handler : Handler}
    (hfires : s.fires i.trigger = some handler) (hne : ∀ id, handler ≠ .reportFailedConnect id) :
    s.entered i = s := by
  unfold entered
  cases htrigger : i.trigger with
  | watch n => rfl
  | timer n =>
    rw [htrigger] at hfires
    obtain ⟨id, -, -, heq, -⟩ := h.fires_timer hfires
    exact absurd heq (hne id)

/-- The attempt whose write watch fires is under way. -/
theorem Attempts.fires_connect (h : Attempts s) {i : Input} {id : UInt16}
    (hfires : s.fires i.trigger = some (.onConnectWritable id)) :
    ∃ p, s.pendingConnects[id]? = some p ∧ p.ended = .kInProgress := by
  cases htrigger : i.trigger with
  | watch n =>
    rw [htrigger] at hfires
    exact (h.fires_watch hfires).2 id rfl
  | timer n =>
    rw [htrigger] at hfires
    obtain ⟨_, _, _, heq, -⟩ := h.fires_timer hfires
    nomatch heq

/-- The attempt whose report fires is over. -/
theorem Attempts.fires_report (h : Attempts s) {i : Input} {id : UInt16}
    (hfires : s.fires i.trigger = some (.reportFailedConnect id)) :
    ∃ p t, s.pendingConnects[id]? = some p ∧ p.ended ≠ .kInProgress ∧
      s.reactor.timers[p.report]? = some t ∧ i.trigger = .timer p.report := by
  cases htrigger : i.trigger with
  | watch n =>
    rw [htrigger] at hfires
    exact absurd rfl ((h.fires_watch hfires).1 id)
  | timer n =>
    rw [htrigger] at hfires
    obtain ⟨_, p, t, heq, hp, hended, rfl, ht⟩ := h.fires_timer hfires
    obtain rfl := Handler.reportFailedConnect.inj heq
    exact ⟨p, t, hp, hended, ht, rfl⟩

theorem fires_of_request {i : Input} {req : Request} (h : s.request i = some req) :
    s.fires i.trigger = some .onControlReadable := by
  unfold request at h
  split at h
  · assumption
  · nomatch h

/-- The state in which a request is dispatched. -/
def reading (s : ProtocolServer) : ProtocolServer := s.act (.recvFromV4 s.fd)

/-- The Result ID a request is answered with. -/
def answer (s : ProtocolServer) (i : Input) : Option UInt8 :=
  (s.request i).map fun req => (s.reading.dispatch i.answers req.header req.dat req.peer).2.1

/-- A request's step: what its handler does, and the Response last. -/
theorem Attempts.step_request (h : Attempts s) {i : Input} {req : Request}
    (hreq : s.request i = some req) :
    ∃ done : ProtocolServer × UInt8 × List UInt8,
      DispatchSpec s.reading i.answers req req.primitive done ∧ s.answer i = some done.2.1 ∧
      s.step i = done.1.act
        (.response { req.header with tid := kTidResponse, rid := done.2.1 } done.2.2 req.peer) := by
  refine ⟨_, dispatch_spec s.reading i.answers req, by rw [answer, hreq]; rfl, ?_⟩
  rw [step_of_request hreq, h.entered_eq (fires_of_request hreq) nofun]
  rfl

theorem step_attempts (h : Attempts s) (i : Input) : Attempts (s.step i) := by
  cases hreq : s.request i with
  | some req =>
    obtain ⟨done, hdispatch, -, hstep⟩ := h.step_request hreq
    have hread : Attempts s.reading := h.act _
    rw [hstep]
    refine Attempts.act ?_ _
    rcases hdispatch with ⟨-, acts, -, hdone⟩ | ⟨hne, rfl⟩
    · rw [hdone]
      exact hread.logged _
    · exact perform_attempts hread req.primitive hne
  | none =>
    rcases step_of_no_request hreq with ⟨-, hstep⟩ | ⟨hfires, hquiet⟩ | ⟨id, hfires, hstep⟩ |
      ⟨id, hfires, hstep⟩ | ⟨id, hfires, hstep⟩
    · rw [hstep]
      exact h
    · obtain ⟨acts, -, hstep⟩ := hquiet
      rw [hstep, h.entered_eq hfires nofun]
      exact h.logged _
    · rw [hstep, h.entered_eq hfires nofun]
      exact onWorkerReadable_attempts h id
    · obtain ⟨p, hp, hended⟩ := h.fires_connect hfires
      rw [hstep, h.entered_eq hfires nofun]
      exact onConnectWritable_attempts h hp hended
    · obtain ⟨p, t, hp, hended, ht, htrigger⟩ := h.fires_report hfires
      rw [hstep, entered, htrigger]
      exact reportFailedConnect_attempts h i.answers.now hp hended ht

theorem start_attempts (fd : Int) : Attempts (start fd) where
  live := fun hp => by simp [start] at hp
  failed := fun hp => by simp [start] at hp
  bytes := fun hp => by simp [start] at hp
  watch := by
    intro n v hn
    simp only [start, Reactor.addWatch, Reactor.addWatchFor] at hn ⊢
    split at hn
    · simp at hn
    · next hfd =>
      rw [TreeTable.getElem?_insert] at hn
      rw [if_neg hfd]
      split at hn
      · next heq =>
        rw [← Option.some.inj hn, heq]
        exact ⟨(by decide), Nat.lt_succ_self _, (by simp), (by simp)⟩
      · simp at hn
  timer := by
    intro n t hn
    simp only [start, Reactor.addWatch, Reactor.addWatchFor] at hn
    split at hn <;> simp at hn
  watchPos := by
    simp only [start, Reactor.addWatch, Reactor.addWatchFor]
    split <;> exact Nat.succ_pos _
  timerPos := by
    simp only [start, Reactor.addWatch, Reactor.addWatchFor]
    split <;> exact Nat.succ_pos _

theorem run_attempts (h : Attempts s) (is : List Input) : Attempts (s.run is) := by
  induction is generalizing s with
  | nil => exact h
  | cons i is ih => exact ih (step_attempts h i)

end ProtocolServer

end Tc8Harness.Testability
