import Tc8Harness.Lib.Trace
import Tc8Harness.Testability.WatchRuns

/-!
# The blocking mode of stream sockets

A stream socket is to be non-blocking only while something needs it: a worker's watch or a pending
connect. The mode is what the backend was last told (`nonBlocking`); `connectStartV4` leaves its
descriptor non-blocking, and a descriptor that is made or accepted is blocking. The steps that take
the last reason away without restoring the mode, or restore it while a worker is armed, are the ones
`restores` excludes.
-/

namespace Tc8Harness.Testability

open Someip Observe

/-! ## Modes -/

/-- The mode a call leaves a descriptor in, if it sets it. -/
def Action.leaves (fd : Int) : Action → Option Bool
  | .setNonBlocking f on => if f = fd then some on else none
  | .connectStartV4 f _ => if f = fd then some true else none
  | .createTcp f | .createUdp f | .accept _ f => if 0 ≤ f ∧ f = fd then some false else none
  | _ => none

/-- Whether a call makes a descriptor a stream socket or a datagram socket. -/
def Action.streams (fd : Int) : Action → Option Bool
  | .createTcp f | .accept _ f => if 0 ≤ f ∧ f = fd then some true else none
  | .createUdp f => if 0 ≤ f ∧ f = fd then some false else none
  | _ => none

/-- A call that opens and closes nothing and sets the mode of no other descriptor. -/
structure Action.About (fd : Int) (action : Action) : Prop where
  opens : ∀ fds, openAfter fds action = fds
  streams : ∀ f, action.streams f = none
  leaves : ∀ f, f ≠ fd → action.leaves f = none

theorem Action.about_setNonBlocking (fd : Int) (on : Bool) : Action.About fd (Action.setNonBlocking fd on) where
  opens _ := rfl
  streams _ := rfl
  leaves _ hf := if_neg hf.symm

theorem Action.about_connectStartV4 (fd : Int) (dst : Endpoint) : Action.About fd (Action.connectStartV4 fd dst) where
  opens _ := rfl
  streams _ := rfl
  leaves _ hf := if_neg hf.symm

/-- A call that opens and closes nothing and sets no mode. -/
structure Action.Inert (action : Action) : Prop where
  opens : ∀ fds, openAfter fds action = fds
  streams : ∀ f, action.streams f = none
  leaves : ∀ f, action.leaves f = none

theorem Action.Inert.about {action : Action} (h : action.Inert) (fd : Int) : action.About fd :=
  ⟨h.opens, h.streams, fun f _ => h.leaves f⟩

theorem Action.Passive.inert {action : Action} (h : action.Passive) : action.Inert where
  opens _ := openAfter_plain h.plain
  streams _ := by cases action <;> first | rfl | exact h.elim
  leaves _ := by cases action <;> first | rfl | exact h.elim

namespace ProtocolServer

variable {s s' : ProtocolServer} {a : Answers}

/-- The mode the backend was last told. -/
def nonBlocking (s : ProtocolServer) (fd : Int) : Bool :=
  (Trace.last (Action.leaves fd) s.log).getD false

def isTcp (s : ProtocolServer) (fd : Int) : Bool :=
  (Trace.last (Action.streams fd) s.log).getD false

/-- Every live stream socket is non-blocking exactly while it has a worker or a pending connect. -/
def Settled (s : ProtocolServer) : Prop :=
  ∀ (id : UInt16) (fd : Int), s.sockets[id]? = some fd → s.isTcp fd = true →
    (s.nonBlocking fd = true ↔ s.eventWatches[id]?.isSome ∨ s.pendingConnects[id]?.isSome)

theorem nonBlocking_act (action : Action) (fd : Int) :
    (s.act action).nonBlocking fd = (action.leaves fd).getD (s.nonBlocking fd) := by
  unfold nonBlocking act
  cases h : action.leaves fd with
  | none => simp only [Trace.last_concat_none h, Option.getD_none]
  | some on => simp only [Trace.last_concat_some h, Option.getD_some]

theorem isTcp_act (action : Action) (fd : Int) :
    (s.act action).isTcp fd = (action.streams fd).getD (s.isTcp fd) := by
  unfold isTcp act
  cases h : action.streams fd with
  | none => simp only [Trace.last_concat_none h, Option.getD_none]
  | some tcp => simp only [Trace.last_concat_some h, Option.getD_some]

/-- The two servers' logs say the same of a descriptor. -/
structure SameMode (fd : Int) (s s' : ProtocolServer) : Prop where
  nonBlocking : s'.nonBlocking fd = s.nonBlocking fd
  isTcp : s'.isTcp fd = s.isTcp fd

theorem SameMode.refl (fd : Int) (s : ProtocolServer) : SameMode fd s s := ⟨rfl, rfl⟩

theorem SameMode.trans {fd : Int} {s₁ s₂ s₃ : ProtocolServer} (h₁ : SameMode fd s₁ s₂)
    (h₂ : SameMode fd s₂ s₃) : SameMode fd s₁ s₃ :=
  ⟨h₂.nonBlocking.trans h₁.nonBlocking, h₂.isTcp.trans h₁.isTcp⟩

theorem SameMode.of_log {fd : Int} (h : s'.log = s.log) : SameMode fd s s' := by
  constructor
  · rw [ProtocolServer.nonBlocking, h, ProtocolServer.nonBlocking]
  · rw [ProtocolServer.isTcp, h, ProtocolServer.isTcp]

theorem SameMode.append {fd : Int} {acts : List Action} (hlog : s'.log = s.log ++ acts)
    (h : ∀ act ∈ acts, act.leaves fd = none ∧ act.streams fd = none) : SameMode fd s s' := by
  constructor
  · rw [ProtocolServer.nonBlocking, hlog, Trace.last_append_none fun act hact => (h act hact).1]
    rfl
  · rw [ProtocolServer.isTcp, hlog, Trace.last_append_none fun act hact => (h act hact).2]
    rfl

theorem SameMode.act {fd : Int} {action : Action}
    (h : action.leaves fd = none ∧ action.streams fd = none) : SameMode fd s (s.act action) :=
  .append rfl (by simpa using h)

/-! ## The invariant -/

/-- The records are those of live sockets, whose descriptors are open and their own, and the modes are
settled. -/
structure Modes (s : ProtocolServer) : Prop where
  isOpen : ∀ {id : UInt16} {fd : Int}, s.sockets[id]? = some fd → fd ∈ s.openFds
  distinct : ∀ {id id' : UInt16} {fd : Int},
    s.sockets[id]? = some fd → s.sockets[id']? = some fd → id = id'
  eventLive : ∀ {id : UInt16} {w : EventWatch},
    s.eventWatches[id]? = some w → s.sockets[id]? = some w.fd
  pendingLive : ∀ {id : UInt16} {p : PendingConnect},
    s.pendingConnects[id]? = some p → s.sockets[id]? = some p.fd
  forwardFd : ∀ {id : UInt16} {p : PendingConnect} {w : EventWatch},
    s.pendingConnects[id]? = some p → p.forward = some w → w.fd = p.fd
  settled : Settled s

/-- Some sockets are gone with all their records, and the others are as they were. -/
theorem Modes.shrink (h : Modes s) (gone : UInt16 → Prop)
    (hsockets : ∀ {k : UInt16} {f : Int}, s'.sockets[k]? = some f ↔ s.sockets[k]? = some f ∧ ¬ gone k)
    (hevents : ∀ k : UInt16, ¬ gone k → s'.eventWatches[k]? = s.eventWatches[k]?)
    (hpendings : ∀ k : UInt16, ¬ gone k → s'.pendingConnects[k]? = s.pendingConnects[k]?)
    (hnone : ∀ k : UInt16, gone k → s'.eventWatches[k]? = none ∧ s'.pendingConnects[k]? = none)
    (hopen : ∀ {k : UInt16} {f : Int}, s'.sockets[k]? = some f → f ∈ s'.openFds)
    (hmode : ∀ {k : UInt16} {f : Int}, s'.sockets[k]? = some f → SameMode f s s') : Modes s' where
  isOpen := hopen
  distinct hid hid' := h.distinct (hsockets.mp hid).1 (hsockets.mp hid').1
  eventLive {id w} hw := by
    by_cases hgone : gone id
    · rw [(hnone id hgone).1] at hw
      nomatch hw
    · exact hsockets.mpr ⟨h.eventLive ((hevents id hgone).symm.trans hw), hgone⟩
  pendingLive {id p} hp := by
    by_cases hgone : gone id
    · rw [(hnone id hgone).2] at hp
      nomatch hp
    · exact hsockets.mpr ⟨h.pendingLive ((hpendings id hgone).symm.trans hp), hgone⟩
  forwardFd {id p w} hp hw := by
    by_cases hgone : gone id
    · rw [(hnone id hgone).2] at hp
      nomatch hp
    · exact h.forwardFd ((hpendings id hgone).symm.trans hp) hw
  settled := by
    intro id fd hid htcp
    obtain ⟨hold, hgone⟩ := hsockets.mp hid
    rw [(hmode hid).isTcp] at htcp
    rw [(hmode hid).nonBlocking, hevents id hgone, hpendings id hgone]
    exact h.settled id fd hold htcp

/-- Nothing of the records and of the modes of live sockets has changed. -/
theorem Modes.congr (h : Modes s) (htable : s'.table = s.table)
    (hevents : ∀ k : UInt16, s'.eventWatches[k]? = s.eventWatches[k]?)
    (hpendings : ∀ k : UInt16, s'.pendingConnects[k]? = s.pendingConnects[k]?)
    (hmode : ∀ {k : UInt16} {f : Int}, s.sockets[k]? = some f → SameMode f s s') : Modes s' := by
  have hsockets : s'.sockets = s.sockets := congrArg Table.sockets htable
  have hopen : s'.openFds = s.openFds := congrArg Table.fds htable
  refine h.shrink (fun _ => False) (by simp [hsockets]) (fun k _ => hevents k)
    (fun k _ => hpendings k) (by simp) ?_ ?_
  · intro k f hk
    rw [hopen]
    exact h.isOpen (hsockets ▸ hk)
  · intro k f hk
    exact hmode (hsockets ▸ hk)

/-- Only what is known of one socket has changed. -/
structure Touches (id : UInt16) (fd : Int) (s s' : ProtocolServer) : Prop where
  table : s'.table = s.table
  events : ∀ k : UInt16, k ≠ id → s'.eventWatches[k]? = s.eventWatches[k]?
  pendings : ∀ k : UInt16, k ≠ id → s'.pendingConnects[k]? = s.pendingConnects[k]?
  others : ∀ f, f ≠ fd → SameMode f s s'
  isTcp : s'.isTcp fd = s.isTcp fd

theorem Modes.touch (h : Modes s) {id : UInt16} {fd : Int} (ht : Touches id fd s s')
    (hid : s.sockets[id]? = some fd) (hevent : ∀ w, s'.eventWatches[id]? = some w → w.fd = fd)
    (hpending : ∀ p, s'.pendingConnects[id]? = some p →
      p.fd = fd ∧ ∀ w, p.forward = some w → w.fd = fd)
    (hnow : s.isTcp fd = true → (s'.nonBlocking fd = true ↔
      s'.eventWatches[id]?.isSome ∨ s'.pendingConnects[id]?.isSome)) : Modes s' := by
  have hsockets : s'.sockets = s.sockets := congrArg Table.sockets ht.table
  have hopen : s'.openFds = s.openFds := congrArg Table.fds ht.table
  refine ⟨?_, ?_, ?_, ?_, ?_, ?_⟩
  · intro k f hk
    rw [hopen]
    exact h.isOpen (hsockets ▸ hk)
  · intro k k' f hk hk'
    exact h.distinct (hsockets ▸ hk) (hsockets ▸ hk')
  · intro k w hw
    rw [hsockets]
    by_cases hk : k = id
    · rw [hk] at hw ⊢
      rw [hevent w hw]
      exact hid
    · exact h.eventLive ((ht.events k hk).symm.trans hw)
  · intro k p hp
    rw [hsockets]
    by_cases hk : k = id
    · rw [hk] at hp ⊢
      rw [(hpending p hp).1]
      exact hid
    · exact h.pendingLive ((ht.pendings k hk).symm.trans hp)
  · intro k p w hp hw
    by_cases hk : k = id
    · rw [hk] at hp
      rw [(hpending p hp).1]
      exact (hpending p hp).2 w hw
    · exact h.forwardFd ((ht.pendings k hk).symm.trans hp) hw
  · intro k f hk htcp
    rw [hsockets] at hk
    by_cases heq : k = id
    · rw [heq, hid] at hk
      obtain rfl := Option.some.inj hk
      rw [heq]
      exact hnow (ht.isTcp ▸ htcp)
    · have hne : f ≠ fd := by
        rintro rfl
        exact heq (h.distinct hk hid)
      rw [(ht.others f hne).isTcp] at htcp
      rw [(ht.others f hne).nonBlocking, ht.events k heq, ht.pendings k heq]
      exact h.settled k f hk htcp

theorem Modes.event_fd (h : Modes s) {id : UInt16} {fd : Int} (hid : s.sockets[id]? = some fd)
    {w : EventWatch} (hw : s.eventWatches[id]? = some w) : w.fd = fd :=
  (Option.some.inj (hid.symm.trans (h.eventLive hw))).symm

theorem Modes.pending_fd (h : Modes s) {id : UInt16} {fd : Int} (hid : s.sockets[id]? = some fd)
    {p : PendingConnect} (hp : s.pendingConnects[id]? = some p) :
    p.fd = fd ∧ ∀ w, p.forward = some w → w.fd = fd := by
  have hfd : p.fd = fd := (Option.some.inj (hid.symm.trans (h.pendingLive hp))).symm
  exact ⟨hfd, fun w hw => (h.forwardFd hp hw).trans hfd⟩

/-! ## Changes to one socket -/

namespace Touches

variable {id : UInt16} {fd : Int}

theorem refl (id : UInt16) (fd : Int) (s : ProtocolServer) : Touches id fd s s :=
  ⟨rfl, fun _ _ => rfl, fun _ _ => rfl, fun f _ => .refl f s, rfl⟩

theorem trans {s₁ s₂ s₃ : ProtocolServer} (h₁ : Touches id fd s₁ s₂) (h₂ : Touches id fd s₂ s₃) :
    Touches id fd s₁ s₃ where
  table := h₂.table.trans h₁.table
  events k hk := (h₂.events k hk).trans (h₁.events k hk)
  pendings k hk := (h₂.pendings k hk).trans (h₁.pendings k hk)
  others f hf := (h₁.others f hf).trans (h₂.others f hf)
  isTcp := h₂.isTcp.trans h₁.isTcp

theorem act {action : Action} (h : Action.About fd action) : Touches id fd s (s.act action) where
  table := table_act_of_open (h.opens _)
  events _ _ := rfl
  pendings _ _ := rfl
  others f hf := .act ⟨h.leaves f hf, h.streams f⟩
  isTcp := by rw [isTcp_act, h.streams]; rfl

/-- Calls that are all about the socket. -/
theorem logged {acts : List Action} (h : ∀ act ∈ acts, Action.About fd act) :
    Touches id fd s { s with log := s.log ++ acts } := by
  induction acts generalizing s with
  | nil => simpa using Touches.refl id fd s
  | cons act acts ih =>
    have hhead : Touches id fd s (s.act act) := .act (h act List.mem_cons_self)
    refine hhead.trans ?_
    have htail := ih (s := s.act act) fun act hact => h act (List.mem_cons_of_mem _ hact)
    simpa [ProtocolServer.act] using htail

/-- The records of the socket change, in the tables of workers and of pending connects. -/
theorem records (hfd : s'.fd = s.fd) (hsockets : s'.sockets = s.sockets)
    (hnext : s'.nextSocketId = s.nextSocketId) (hregistered : s'.registered = s.registered)
    (hlog : s'.log = s.log)
    (hevents : ∀ k : UInt16, k ≠ id → s'.eventWatches[k]? = s.eventWatches[k]?)
    (hpendings : ∀ k : UInt16, k ≠ id → s'.pendingConnects[k]? = s.pendingConnects[k]?) :
    Touches id fd s s' where
  table := by simp only [ProtocolServer.table, openFds, hfd, hsockets, hnext, hregistered, hlog]
  events := hevents
  pendings := hpendings
  others f _ := .of_log hlog
  isTcp := (SameMode.of_log hlog).isTcp

theorem stopWorker (id : UInt16) (fd : Int) (s : ProtocolServer) : Touches id fd s (s.stopWorker id) := by
  unfold ProtocolServer.stopWorker
  split
  · exact .refl id fd s
  · refine .records rfl rfl rfl rfl rfl (fun k hk => ?_) fun _ _ => rfl
    exact (TreeTable.getElem?_erase id k).trans (if_neg hk)

theorem dropPendingConnect (id : UInt16) (fd : Int) (s : ProtocolServer) :
    Touches id fd s (s.dropPendingConnect id) := by
  unfold ProtocolServer.dropPendingConnect
  split
  · exact .refl id fd s
  · refine .records rfl rfl rfl rfl rfl (fun _ _ => rfl) fun k hk => ?_
    exact (TreeTable.getElem?_erase id k).trans (if_neg hk)

theorem armEventWatch (id : UInt16) (fd : Int) (s : ProtocolServer) (w : EventWatch) :
    Touches id fd s (s.armEventWatch id w) := by
  refine .records rfl rfl rfl rfl rfl (fun k hk => ?_) fun _ _ => rfl
  exact (TreeTable.getElem?_insert id k _).trans (if_neg hk)

theorem withPending (id : UInt16) (fd : Int) (s : ProtocolServer) (reactor : Reactor Handler)
    (p : PendingConnect) :
    Touches id fd s
      { s with reactor := reactor, pendingConnects := s.pendingConnects.insert id p } := by
  refine .records rfl rfl rfl rfl rfl (fun _ _ => rfl) fun k hk => ?_
  exact (TreeTable.getElem?_insert id k _).trans (if_neg hk)

end Touches

theorem sameMode_stopWorker (id : UInt16) (fd : Int) : SameMode fd s (s.stopWorker id) := by
  unfold stopWorker
  split <;> exact ⟨rfl, rfl⟩

theorem sameMode_dropPendingConnect (id : UInt16) (fd : Int) :
    SameMode fd s (s.dropPendingConnect id) := by
  unfold dropPendingConnect
  split <;> exact ⟨rfl, rfl⟩

/-! ## Requests -/

theorem openFds_inert {acts : List Action} (h : ∀ act ∈ acts, act.Inert) :
    openFds { s with log := s.log ++ acts } = s.openFds := by
  have hfold : acts.foldl openAfter s.openFds = s.openFds := by
    induction acts with
    | nil => rfl
    | cons act acts ih =>
      rw [List.foldl_cons, (h act List.mem_cons_self).opens]
      exact ih fun act hact => h act (List.mem_cons_of_mem _ hact)
  simp only [openFds, List.foldl_append] at hfold ⊢
  exact hfold

theorem sameMode_inert {acts : List Action} (h : ∀ act ∈ acts, act.Inert) (f : Int) :
    SameMode f s { s with log := s.log ++ acts } :=
  .append rfl fun act hact => ⟨(h act hact).leaves f, (h act hact).streams f⟩

theorem Modes.inert (h : Modes s) {acts : List Action} (hacts : ∀ act ∈ acts, act.Inert) :
    Modes { s with log := s.log ++ acts } := by
  refine h.congr ?_ (fun _ => rfl) (fun _ => rfl) fun {_ f} _ => sameMode_inert hacts f
  rw [table, openFds_inert hacts]
  rfl

theorem Modes.act (h : Modes s) {action : Action} (haction : action.Inert) : Modes (s.act action) :=
  h.inert (show ∀ act ∈ [action], act.Inert by simpa using haction)

theorem Modes.passes (h : Modes s) (hp : Passes s s') : Modes s' := by
  obtain ⟨acts, hpassive, rfl⟩ := hp
  exact h.inert fun act hact => (hpassive act hact).inert

/-- A connect that is opened: the socket is non-blocking and has a pending connect, which takes over
the forward that was armed. -/
theorem openPending_modes (h : Modes s) {req : ConnectReq} {fd : Int}
    (hid : s.sockets[req.socketId]? = some fd) (serviceId : UInt16) (peer : Endpoint) :
    Modes ((s.act (.connectStartV4 fd req.dst)).openPending a req fd serviceId peer) := by
  let started := s.act (.connectStartV4 fd req.dst)
  have hpend : ∀ (reactor : Reactor Handler) (p : PendingConnect), p.fd = fd →
      p.forward = s.eventWatches[req.socketId]? →
      Modes { started.stopWorker req.socketId with
        reactor := reactor
        pendingConnects :=
          (started.stopWorker req.socketId).pendingConnects.insert req.socketId p } := by
    intro reactor p hfd hforward
    have ht : Touches req.socketId fd s (started.stopWorker req.socketId) :=
      .trans (.act (Action.about_connectStartV4 fd req.dst)) (.stopWorker req.socketId fd _)
    refine h.touch (ht.trans (.withPending req.socketId fd _ reactor p)) hid ?_ ?_ fun _ => ?_
    · intro w hw
      rw [stopWorker_gone] at hw
      nomatch hw
    · intro q hq
      rw [TreeTable.getElem?_insert, if_pos rfl] at hq
      obtain rfl := Option.some.inj hq
      exact ⟨hfd, fun w hw => h.event_fd hid (hforward ▸ hw)⟩
    · refine iff_of_true ?_ (.inr (by rw [TreeTable.getElem?_insert, if_pos rfl]; rfl))
      refine (sameMode_stopWorker (s := started) req.socketId fd).nonBlocking.trans ?_
      rw [nonBlocking_act, Action.leaves, if_pos rfl]
      rfl
  unfold openPending
  simp only
  split
  · exact hpend _ _ rfl rfl
  · exact hpend _ _ rfl rfl

theorem connectTcp_modes (h : Modes s) (dat : List UInt8) (serviceId : UInt16) (peer : Endpoint) :
    Modes (s.connectTcp a dat serviceId peer).1 := by
  unfold connectTcp
  split
  · exact h
  next req _ =>
  split
  · exact h
  next fd hid =>
  split
  · exact h
  next hpending =>
  have hnone : s.pendingConnects[req.socketId]? = none := by
    simpa [← Std.TreeMap.isSome_getElem?_eq_contains] using hpending
  have hstart : Touches req.socketId fd s (s.act (.connectStartV4 fd req.dst)) :=
    .act (Action.about_connectStartV4 fd req.dst)
  have hleft : (s.act (.connectStartV4 fd req.dst)).nonBlocking fd = true := by
    rw [nonBlocking_act, Action.leaves, if_pos rfl]
    rfl
  have hsettle : Modes ((s.act (.connectStartV4 fd req.dst)).settleMode req.socketId fd) := by
    unfold settleMode
    have hcontains : (s.act (.connectStartV4 fd req.dst)).eventWatches.contains req.socketId =
        s.eventWatches[req.socketId]?.isSome := Std.TreeMap.isSome_getElem?_eq_contains.symm
    rw [hcontains]
    split
    · next harmed =>
      refine h.touch hstart hid (fun w => h.event_fd hid) (fun p => h.pending_fd hid) fun _ => ?_
      exact iff_of_true hleft (.inl harmed)
    · next hidle =>
      refine h.touch (hstart.trans (.act (Action.about_setNonBlocking fd false))) hid
        (fun w => h.event_fd hid) (fun p => h.pending_fd hid) fun _ => ?_
      refine iff_of_false ?_ ?_
      · rw [nonBlocking_act, Action.leaves, if_pos rfl]
        simp
      · rintro (harmed | hopen)
        · exact hidle harmed
        · rw [show ((s.act (.connectStartV4 fd req.dst)).act (.setNonBlocking fd false)).pendingConnects
            = s.pendingConnects from rfl, hnone] at hopen
          nomatch hopen
  split
  · exact hsettle
  · exact hsettle
  · exact hsettle
  · exact openPending_modes h hid serviceId peer

/-- A worker is armed on a socket in non-blocking mode. -/
theorem armEventWatch_modes (h : Modes s) {id : UInt16} {fd : Int} (hid : s.sockets[id]? = some fd)
    (ht : Touches id fd s s') (hpendings : s'.pendingConnects[id]? = s.pendingConnects[id]?)
    {w : EventWatch} (hfd : w.fd = fd) :
    Modes (((s'.stopWorker id).act (.setNonBlocking fd true)).armEventWatch id w) := by
  have harmed : (((s'.stopWorker id).act (.setNonBlocking fd true)).armEventWatch id w).eventWatches[id]? =
      some { w with id := (s'.stopWorker id).reactor.addWatch w.fd (.onWorkerReadable id) |>.2 } := by
    exact (TreeTable.getElem?_insert id id _).trans (if_pos rfl)
  have ht' := ((ht.trans (.stopWorker id fd s')).trans
    (.act (Action.about_setNonBlocking fd true))).trans (.armEventWatch id fd _ w)
  refine h.touch ht' hid ?_ ?_ fun _ => ?_
  · intro v hv
    rw [harmed] at hv
    exact (Option.some.inj hv).symm ▸ hfd
  · intro p hp
    refine h.pending_fd hid (hpendings ▸ ?_)
    rw [← pendingConnects_stopWorker (s := s') id]
    exact hp
  · refine iff_of_true ?_ (.inl (by rw [harmed]; rfl))
    refine (nonBlocking_act (s := s'.stopWorker id) (.setNonBlocking fd true) fd).trans ?_
    rw [Action.leaves, if_pos rfl]
    rfl

theorem listenAndAcceptTcp_modes (h : Modes s) (dat : List UInt8) (serviceId : UInt16)
    (peer : Endpoint) : Modes (s.listenAndAcceptTcp a dat serviceId peer).1 := by
  unfold listenAndAcceptTcp
  split
  · exact h
  next req _ =>
  simp only
  split
  · exact h
  next fd hid =>
  have hlisten : Touches req.listenSocketId fd s
      (s.act (.listen fd (if req.maxCon = 0 then 1 else req.maxCon))) :=
    .act ⟨fun _ => rfl, fun _ => rfl, fun _ _ => rfl⟩
  split
  · exact h.act ⟨fun _ => rfl, fun _ => rfl, fun _ => rfl⟩
  · exact armEventWatch_modes h hid hlisten rfl rfl

/-- The record of a pending connect changes, its descriptor does not. -/
theorem Modes.replacePending (h : Modes s) {id : UInt16} {p p' : PendingConnect}
    (hp : s.pendingConnects[id]? = some p) (hfd : p'.fd = p.fd)
    (hforward : ∀ w, p'.forward = some w → w.fd = p.fd) :
    Modes { s with pendingConnects := s.pendingConnects.insert id p' } := by
  have hid := h.pendingLive hp
  refine h.touch (.withPending id p.fd s s.reactor p') hid (fun w => h.event_fd hid) ?_ ?_
  · intro q hq
    rw [TreeTable.getElem?_insert, if_pos rfl] at hq
    obtain rfl := Option.some.inj hq
    exact ⟨hfd, hforward⟩
  · intro htcp
    have hnow := h.settled id p.fd hid htcp
    rw [hp] at hnow
    rw [TreeTable.getElem?_insert, if_pos rfl]
    exact hnow

theorem receiveAndForward_modes (h : Modes s) (dat : List UInt8) (serviceId : UInt16)
    (peer : Endpoint) (udp : Bool) : Modes (s.receiveAndForward a dat serviceId peer udp).1 := by
  unfold receiveAndForward
  split
  · exact h
  next req _ =>
  split
  · exact h
  next fd hid =>
  simp only
  split
  · next p hp =>
    -- the forward is queued on the connect
    refine h.replacePending hp rfl ?_
    rintro w ⟨⟩
    exact (h.pending_fd hid hp).1.symm
  · let opened := s.act (.setNonBlocking fd true)
    let reads := List.replicate ((drained a).length + 1) (Action.recv fd)
    have hreads : Touches req.socketId fd opened { opened with log := opened.log ++ reads } := by
      refine .logged fun act hact => ?_
      rw [List.eq_of_mem_replicate hact]
      exact ⟨fun _ => rfl, fun _ => rfl, fun _ _ => rfl⟩
    have hdrain : Touches req.socketId fd s
        (({ opened with log := opened.log ++ reads } : ProtocolServer).act (.setNonBlocking fd false)) :=
      .trans (.trans (.act (Action.about_setNonBlocking fd true)) hreads)
        (.act (Action.about_setNonBlocking fd false))
    exact armEventWatch_modes h hid hdrain rfl rfl

theorem sendDataTcp_modes (h : Modes s) (dat : List UInt8) : Modes (s.sendDataTcp a dat).1 := by
  unfold sendDataTcp
  split
  · exact h
  next req _ =>
  split
  · exact h
  next fd _ =>
  simp only
  split
  · next p hp =>
    split
    · exact h
    · exact h.replacePending hp rfl fun w hw => h.forwardFd hp hw
  · exact h.act ⟨fun _ => rfl, fun _ => rfl, fun _ => rfl⟩

/-- A SHUTDOWN takes a pending connect away and leaves the mode: the socket needs a worker for it. -/
theorem shutdownSocket_modes (h : Modes s) {dat : List UInt8}
    (hok : ∀ req how, parseShutdownSocket dat = some req → shutdownHow req.typeId = some how →
      s.pendingConnects[req.socketId]?.isSome → ∀ fd, s.sockets[req.socketId]? = some fd →
      s.isTcp fd = true → s.eventWatches[req.socketId]?.isSome) :
    Modes (s.shutdownSocket a dat).1 := by
  unfold shutdownSocket
  split
  · exact h
  next req hreq =>
  split
  · exact h
  next how hhow =>
  split
  · exact h
  next fd hid =>
  have hdropped : Modes (s.dropPendingConnect req.socketId) := by
    refine h.touch (.dropPendingConnect req.socketId fd s) hid ?_ ?_ fun htcp => ?_
    · intro w hw
      rw [eventWatches_dropPendingConnect] at hw
      exact h.event_fd hid hw
    · intro p hp
      rw [dropPendingConnect_gone] at hp
      nomatch hp
    · rw [(sameMode_dropPendingConnect _ fd).nonBlocking, eventWatches_dropPendingConnect, dropPendingConnect_gone,
        h.settled req.socketId fd hid htcp]
      constructor
      · rintro (harmed | hopen)
        · exact .inl harmed
        · exact .inl (hok req how hreq hhow hopen fd hid htcp)
      · rintro (harmed | hopen)
        · exact .inl harmed
        · nomatch hopen
  exact hdropped.act ⟨fun _ => rfl, fun _ => rfl, fun _ => rfl⟩

theorem eraseSocket_modes (h : Modes s) (id : UInt16) (abort : Bool) :
    Modes (s.eraseSocket id abort).1 := by
  let stopped := (s.stopWorker id).dropPendingConnect id
  have ht : Touches id 0 s stopped :=
    .trans (.stopWorker id 0 s) (.dropPendingConnect id 0 (s.stopWorker id))
  have hsockets : stopped.sockets = s.sockets := congrArg Table.sockets ht.table
  have hopen : stopped.openFds = s.openFds := congrArg Table.fds ht.table
  have hlog : ∀ f, SameMode f s stopped := fun f =>
    (sameMode_stopWorker id f).trans (sameMode_dropPendingConnect id f)
  have hnone : stopped.eventWatches[id]? = none ∧ stopped.pendingConnects[id]? = none := by
    refine ⟨?_, dropPendingConnect_gone id⟩
    rw [eventWatches_dropPendingConnect]
    exact stopWorker_gone id
  unfold eraseSocket
  cases hid : s.sockets[id]? with
  | none =>
    have hid' : stopped.sockets[id]? = none := hsockets ▸ hid
    simp only [stopped] at hid'
    simp only [hid']
    refine h.shrink (fun k => k = id) ?_ ht.events ht.pendings ?_ ?_ fun _ => hlog _
    · intro k f
      rw [show ((s.stopWorker id).dropPendingConnect id).sockets = s.sockets from hsockets]
      refine ⟨fun hk => ⟨hk, ?_⟩, And.left⟩
      rintro rfl
      rw [hid] at hk
      nomatch hk
    · rintro k rfl
      exact hnone
    · intro k f hk
      rw [show ((s.stopWorker id).dropPendingConnect id).openFds = s.openFds from hopen]
      exact h.isOpen (hsockets ▸ hk)
  | some fd =>
    have hid' : stopped.sockets[id]? = some fd := hsockets ▸ hid
    simp only [stopped] at hid'
    simp only [hid']
    have herased : ∀ k : UInt16, (stopped.sockets.erase id)[k]? =
        if k = id then none else s.sockets[k]? := by
      intro k
      rw [TreeTable.getElem?_erase, hsockets]
    have hclosing : ∀ f, (if abort then Action.closeWithAbort fd else .closeFd fd).leaves f = none ∧
        (if abort then Action.closeWithAbort fd else .closeFd fd).streams f = none := by
      intro f
      cases abort <;> exact ⟨rfl, rfl⟩
    refine h.shrink (fun k => k = id) ?_ ht.events ht.pendings ?_ ?_ ?_
    · intro k f
      refine (Iff.of_eq (congrArg (· = some f) (herased k))).trans ?_
      by_cases hk : k = id
      · simp [hk]
      · simp [hk]
    · rintro k rfl
      exact hnone
    · intro k f hk
      have hk' := (herased k).symm.trans hk
      split at hk'
      · nomatch hk'
      · next hne =>
        have hother : f ≠ fd := by
          rintro rfl
          exact hne (h.distinct hk' hid)
        have hfds : ((if abort then Action.closeWithAbort fd else .closeFd fd) |> openAfter s.openFds) =
            s.openFds.erase fd := by cases abort <;> rfl
        rw [openFds_act, show ProtocolServer.openFds { stopped with sockets := stopped.sockets.erase id }
          = s.openFds from hopen, hfds]
        exact Finset.mem_erase_of_ne_of_mem hother (h.isOpen hk')
    · intro k f _
      have hact : SameMode f { stopped with sockets := stopped.sockets.erase id } _ :=
        .act (hclosing f)
      exact .trans (hlog f) ⟨hact.nonBlocking, hact.isTcp⟩

theorem endTest_modes (h : Modes s) : Modes s.stopAllWorkers.closeAllSockets := by
  have hempty : ∀ {k : UInt16} {f : Int},
      s.stopAllWorkers.closeAllSockets.sockets[k]? = some f → False := by
    intro k f hk
    simp [closeAllSockets] at hk
  refine h.shrink (fun _ => True) ?_ (fun k hk => absurd trivial hk) (fun k hk => absurd trivial hk)
    (fun k _ => stopAllWorkers_gone k) (fun hk => (hempty hk).elim) fun hk => (hempty hk).elim
  intro k f
  exact iff_of_false hempty (by simp)

/-! ## Registrations -/

/-- A blocking descriptor that is open and no socket's is registered under an id without records. -/
theorem Modes.register (h : Modes s) {fd : Int} (hopen : fd ∈ s.openFds)
    (hfree : ∀ id : UInt16, s.sockets[id]? ≠ some fd) (hblocking : s.nonBlocking fd = false)
    (hevent : s.eventWatches[s.nextSocketId]? = none)
    (hpending : s.pendingConnects[s.nextSocketId]? = none) : Modes (s.registerSocket fd).1 := by
  have hlook : ∀ k : UInt16, (s.registerSocket fd).1.sockets[k]? =
      if k = s.nextSocketId then some fd else s.sockets[k]? :=
    fun k => TreeTable.getElem?_insert s.nextSocketId k fd
  refine ⟨?_, ?_, ?_, ?_, h.forwardFd, ?_⟩
  · intro k f hk
    rw [hlook] at hk
    split at hk
    · obtain rfl := Option.some.inj hk
      exact hopen
    · exact h.isOpen hk
  · intro k k' f hk hk'
    rw [hlook] at hk hk'
    split at hk <;> split at hk'
    · next heq heq' => exact heq.trans heq'.symm
    · exact absurd ((Option.some.inj hk) ▸ hk') (hfree k')
    · exact absurd ((Option.some.inj hk') ▸ hk) (hfree k)
    · exact h.distinct hk hk'
  · intro k w hw
    have hk : k ≠ s.nextSocketId := by
      rintro rfl
      exact nomatch hevent.symm.trans hw
    rw [hlook, if_neg hk]
    exact h.eventLive hw
  · intro k p hp
    have hk : k ≠ s.nextSocketId := by
      rintro rfl
      exact nomatch hpending.symm.trans hp
    rw [hlook, if_neg hk]
    exact h.pendingLive hp
  · intro k f hk htcp
    rw [hlook] at hk
    split at hk
    · next heq =>
      obtain rfl := Option.some.inj hk
      refine iff_of_false ?_ ?_
      · rw [show (s.registerSocket fd).1.nonBlocking fd = s.nonBlocking fd from rfl, hblocking]
        simp
      · rw [heq, show (s.registerSocket fd).1.eventWatches = s.eventWatches from rfl,
          show (s.registerSocket fd).1.pendingConnects = s.pendingConnects from rfl, hevent, hpending]
        simp
    · exact h.settled k f hk htcp

/-- A descriptor that was not open is obtained, and nothing is registered yet. -/
theorem Modes.obtain (h : Modes s) {action : Action} {fd : Int} (hfresh : fd ∉ s.openFds)
    (hopens : openAfter s.openFds action = insert fd s.openFds)
    (hother : ∀ f, f ≠ fd → action.leaves f = none ∧ action.streams f = none) :
    Modes (s.act action) := by
  refine h.shrink (fun _ => False) (by simp [ProtocolServer.act]) (fun _ _ => rfl) (fun _ _ => rfl)
    (by simp) ?_ ?_
  · intro k f hk
    rw [openFds_act, hopens]
    exact Finset.mem_insert_of_mem (h.isOpen hk)
  · intro k f hk
    refine .act (hother f ?_)
    rintro rfl
    exact hfresh (h.isOpen hk)

/-- The next id has no records of an older socket. -/
def nextIdle (s : ProtocolServer) : Bool :=
  s.eventWatches[s.nextSocketId]?.isNone && s.pendingConnects[s.nextSocketId]?.isNone

theorem createAndBind_modes (h : Modes s) (dat : List UInt8) (tcp : Bool)
    (hfresh : 0 ≤ a.create → a.create ∉ s.openFds)
    (hidle : createdFd a dat ≠ none → s.nextIdle = true) :
    Modes (s.createAndBind a dat tcp).1 := by
  unfold createAndBind
  unfold createdFd at hidle
  cases hreq : parseCreateAndBind dat with
  | none => exact h
  | some req =>
    simp only [hreq] at hidle ⊢
    have hopens : openAfter s.openFds (if tcp then .createTcp a.create else .createUdp a.create) =
        if 0 ≤ a.create then insert a.create s.openFds else s.openFds := by
      cases tcp <;> rfl
    have hleaves : ∀ f, (if tcp then Action.createTcp a.create else .createUdp a.create).leaves f =
        if 0 ≤ a.create ∧ a.create = f then some false else none := by
      intro f
      cases tcp <;> rfl
    have hstreams : ∀ f, ¬ (0 ≤ a.create ∧ a.create = f) →
        (if tcp then Action.createTcp a.create else .createUdp a.create).streams f = none := by
      intro f hf
      cases tcp <;> exact if_neg hf
    generalize (if tcp = true then Action.createTcp a.create else .createUdp a.create) = opening
      at hopens hleaves hstreams ⊢
    have hother : ∀ f, ¬ (0 ≤ a.create ∧ a.create = f) →
        opening.leaves f = none ∧ opening.streams f = none :=
      fun f hf => ⟨(hleaves f).trans (if_neg hf), hstreams f hf⟩
    by_cases hneg : a.create < 0
    · rw [if_pos hneg]
      rw [if_neg (by omega)] at hopens
      exact h.congr (table_act_of_open hopens) (fun _ => rfl) (fun _ => rfl) fun {_ f} _ =>
        .act (hother f (by omega))
    · have hnonneg : 0 ≤ a.create := by omega
      rw [if_pos hnonneg] at hopens
      have hobtained : Modes (s.act opening) :=
        h.obtain (hfresh hnonneg) hopens fun f hf => hother f fun hc => hf hc.2.symm
      rw [if_neg hneg]
      -- what binding adds to the log says nothing of any mode
      generalize hbound : (if req.doBind = true then
          ((s.act opening).act (.setReuseAddr a.create)).act (.bindV4 a.create
            (bindAddr req.localAddr) (if req.localPort = 0xFFFF then 0 else req.localPort))
          else s.act opening) = bound
      obtain ⟨acts, hacts, hbind⟩ : ∃ acts : List Action, (∀ act ∈ acts, act.Inert) ∧
          bound = { s.act opening with log := (s.act opening).log ++ acts } := by
        rw [← hbound]
        split
        · refine ⟨[.setReuseAddr a.create, .bindV4 a.create (bindAddr req.localAddr)
            (if req.localPort = 0xFFFF then 0 else req.localPort)], ?_, by simp [ProtocolServer.act]⟩
          intro act hact
          rcases List.mem_pair.mp hact with rfl | rfl <;>
            exact ⟨fun _ => rfl, fun _ => rfl, fun _ => rfl⟩
        · exact ⟨[], by simp, by simp⟩
      have hmodes : Modes bound := hbind ▸ hobtained.inert hacts
      have hfree : ∀ id : UInt16, bound.sockets[id]? ≠ some a.create := by
        intro id hid
        rw [hbind] at hid
        exact hfresh hnonneg (h.isOpen hid)
      have hopen : bound.openFds = insert a.create s.openFds := by
        rw [hbind, openFds_inert hacts, openFds_act, hopens]
      by_cases hfailed : req.doBind ∧ a.bindV4 = false
      · -- the descriptor is closed again, and it was no socket's
        rw [if_pos hfailed]
        refine hmodes.shrink (fun _ => False) (by simp [ProtocolServer.act]) (fun _ _ => rfl)
          (fun _ _ => rfl) (by simp) ?_ fun _ => .act ⟨rfl, rfl⟩
        intro k f hk
        rw [openFds_act, openAfter]
        refine Finset.mem_erase_of_ne_of_mem ?_ (hmodes.isOpen hk)
        rintro rfl
        exact hfree k hk
      · rw [if_neg hfailed]
        have hblocking : bound.nonBlocking a.create = false := by
          rw [hbind, (sameMode_inert hacts a.create).nonBlocking, nonBlocking_act, hleaves,
            if_pos ⟨hnonneg, rfl⟩]
          rfl
        have hnext := hidle (by
          rw [if_neg (by rintro (hc | hc); exacts [hneg hc, hfailed hc])]
          simp)
        simp only [nextIdle, Bool.and_eq_true, Option.isNone_iff_eq_none] at hnext
        refine hmodes.register (by rw [hopen]; exact Finset.mem_insert_self _ _) hfree hblocking ?_ ?_
        · rw [hbind]
          exact hnext.1
        · rw [hbind]
          exact hnext.2

end ProtocolServer

end Tc8Harness.Testability
