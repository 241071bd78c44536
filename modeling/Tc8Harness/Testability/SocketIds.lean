import Tc8Harness.Testability.SocketTable

/-!
# Socket ids

Ids come from a 16-bit counter that is never compared with the table. While every registration finds
its id free, the table names each open descriptor once and an id keeps its descriptor; the first
registration under a live id loses the descriptor it named (`lossless_iff_ids_free`).
-/

namespace Tc8Harness.Testability

open Someip Observe

namespace ProtocolServer

variable {s : ProtocolServer} {a : Answers}

/-! ## The invariant -/

namespace Table

variable {t : Table}

/-- The table names open descriptors only, and none of them is the control socket. -/
structure Sound (t : Table) : Prop where
  control : t.fd ∈ t.fds
  isOpen : ∀ {id : UInt16} {fd : Int}, t.sockets[id]? = some fd → fd ∈ t.fds ∧ fd ≠ t.fd

/-- Every open descriptor is named, and by one id. -/
structure Lossless (t : Table) : Prop where
  named : ∀ fd ∈ t.fds, fd ≠ t.fd → ∃! id : UInt16, t.sockets[id]? = some fd
  distinct : ∀ {id id' : UInt16} {fd : Int},
    t.sockets[id]? = some fd → t.sockets[id']? = some fd → id = id'

theorem Lossless.of_named (hnamed : ∀ fd ∈ t.fds, fd ≠ t.fd → ∃ id : UInt16, t.sockets[id]? = some fd)
    (hdistinct : ∀ {id id' : UInt16} {fd : Int},
      t.sockets[id]? = some fd → t.sockets[id']? = some fd → id = id') : Lossless t where
  named := by
    intro fd hopen hfd
    obtain ⟨id, hid⟩ := hnamed fd hopen hfd
    exact ⟨id, hid, fun id' hid' => hdistinct hid' hid⟩
  distinct := hdistinct

theorem getElem?_register (fd : Int) (id : UInt16) :
    (t.register fd).sockets[id]? = if id = t.nextSocketId then some fd else t.sockets[id]? :=
  TreeTable.getElem?_insert ..

theorem getElem?_close (fd : Int) (id id' : UInt16) :
    (t.close id fd).sockets[id']? = if id' = id then none else t.sockets[id']? :=
  TreeTable.getElem?_erase ..

theorem register_sound (h : Sound t) {fd : Int} (hfresh : fd ∉ t.fds) : Sound (t.register fd) where
  control := Finset.mem_insert_of_mem h.control
  isOpen := by
    intro id fd' hid
    rw [getElem?_register] at hid
    split at hid
    · cases hid
      exact ⟨Finset.mem_insert_self .., fun hfd => hfresh (hfd ▸ h.control)⟩
    · exact ⟨Finset.mem_insert_of_mem (h.isOpen hid).1, (h.isOpen hid).2⟩

/-- A registration under a free id keeps every name. -/
theorem register_lossless (h : Sound t) (hl : Lossless t) {fd : Int} (hfresh : fd ∉ t.fds)
    (hfree : t.sockets[t.nextSocketId]? = none) : Lossless (t.register fd) := by
  refine .of_named ?_ ?_
  · intro fd' hopen hfd'
    rcases Finset.mem_insert.mp hopen with rfl | hold
    · exact ⟨t.nextSocketId, by rw [getElem?_register, if_pos rfl]⟩
    · obtain ⟨id, hid, -⟩ := hl.named fd' hold hfd'
      have hne : id ≠ t.nextSocketId := by
        rintro rfl
        rw [hfree] at hid
        nomatch hid
      exact ⟨id, by rw [getElem?_register, if_neg hne, hid]⟩
  · intro id id' fd' hid hid'
    rw [getElem?_register] at hid hid'
    split at hid <;> split at hid'
    · next h₁ h₂ => rw [h₁, h₂]
    · cases hid
      exact absurd (h.isOpen hid').1 hfresh
    · cases hid'
      exact absurd (h.isOpen hid).1 hfresh
    · exact hl.distinct hid hid'

/-- **A registration under a live id loses what the id named.** -/
theorem not_lossless_register (h : Sound t) (hl : Lossless t) {fd fd₀ : Int} (hfresh : fd ∉ t.fds)
    (hlive : t.sockets[t.nextSocketId]? = some fd₀) : ¬ Lossless (t.register fd) := by
  intro hl'
  obtain ⟨id, hid, -⟩ := hl'.named fd₀ (Finset.mem_insert_of_mem (h.isOpen hlive).1) (h.isOpen hlive).2
  simp only [getElem?_register] at hid
  split at hid
  · cases hid
    exact hfresh (h.isOpen hlive).1
  · next hne => exact hne (hl.distinct hid hlive)

theorem close_sound (h : Sound t) (hl : Lossless t) {id : UInt16} {fd : Int}
    (hid : t.sockets[id]? = some fd) : Sound (t.close id fd) where
  control := Finset.mem_erase_of_ne_of_mem (h.isOpen hid).2.symm h.control
  isOpen := by
    intro id' fd' hid'
    rw [getElem?_close] at hid'
    split at hid'
    · nomatch hid'
    · next hne =>
      refine ⟨Finset.mem_erase_of_ne_of_mem ?_ (h.isOpen hid').1, (h.isOpen hid').2⟩
      rintro rfl
      exact hne (hl.distinct hid' hid)

theorem close_lossless (hl : Lossless t) {id : UInt16} {fd : Int} (hid : t.sockets[id]? = some fd) :
    Lossless (t.close id fd) := by
  refine .of_named ?_ ?_
  · intro fd' hopen hfd'
    obtain ⟨hne, hold⟩ := Finset.mem_erase.mp hopen
    obtain ⟨id', hid', -⟩ := hl.named fd' hold hfd'
    have hneid : id' ≠ id := by
      rintro rfl
      rw [hid] at hid'
      exact hne (Option.some.inj hid').symm
    exact ⟨id', by rw [getElem?_close, if_neg hneid, hid']⟩
  · intro id₁ id₂ fd' h₁ h₂
    rw [getElem?_close] at h₁ h₂
    split at h₁
    · nomatch h₁
    split at h₂
    · nomatch h₂
    exact hl.distinct h₁ h₂

theorem mem_foldl_erase (fds : List Int) (open₀ : Finset Int) (fd : Int) :
    fd ∈ fds.foldl (fun open₀ fd => open₀.erase fd) open₀ ↔ fd ∈ open₀ ∧ fd ∉ fds := by
  induction fds generalizing open₀ with
  | nil => simp
  | cons fd' fds ih =>
    rw [List.foldl_cons, ih, Finset.mem_erase, List.mem_cons]
    tauto

theorem mem_clear (fd : Int) :
    fd ∈ t.clear.fds ↔ fd ∈ t.fds ∧ ∀ id : UInt16, t.sockets[id]? ≠ some fd := by
  simp only [clear, mem_foldl_erase, List.mem_map, Prod.exists, exists_eq_right,
    Std.TreeMap.mem_toList_iff_getElem?_eq_some, not_exists, ne_eq]

theorem clear_sound (h : Sound t) : Sound t.clear where
  control := (mem_clear _).mpr ⟨h.control, fun _ hid => (h.isOpen hid).2 rfl⟩
  isOpen := by
    intro id fd hid
    simp [clear] at hid

theorem clear_lossless (hl : Lossless t) : Lossless t.clear := by
  refine .of_named ?_ ?_
  · intro fd hopen hfd
    obtain ⟨hold, hnone⟩ := (mem_clear fd).mp hopen
    obtain ⟨id, hid, -⟩ := hl.named fd hold hfd
    exact absurd hid (hnone id)
  · intro id id' fd hid
    simp [clear] at hid

end Table

theorem start_sound (fd : Int) : (start fd).table.Sound where
  control := Finset.mem_singleton_self fd
  isOpen := by
    intro id fd' hid
    simp [table, start] at hid

theorem start_lossless (fd : Int) : (start fd).table.Lossless := by
  refine .of_named ?_ ?_
  · intro fd' hopen hfd'
    exact absurd (Finset.mem_singleton.mp hopen) hfd'
  · intro id id' fd' hid
    simp [table, start] at hid

/-- A registered descriptor is one the backend has just handed out. -/
theorem registers_fresh {i : Input} (hfresh : FreshFds s i) {fd : Int}
    (h : s.registers i = some fd) : fd ∉ s.openFds := by
  have hanswer : (0 ≤ i.answers.create ∧ fd = i.answers.create) ∨
      (0 ≤ i.answers.accept ∧ fd = i.answers.accept) := by
    unfold registers at h
    split at h
    · split at h
      · unfold createdFd at h
        split at h
        · nomatch h
        split at h
        · nomatch h
        · next hcond => exact .inl ⟨by omega, (Option.some.inj h).symm⟩
      · nomatch h
    · split at h
      · unfold acceptedFd at h
        split at h
        · nomatch h
        split at h
        · next hcond => exact .inr ⟨hcond.2.2, (Option.some.inj h).symm⟩
        · nomatch h
      · nomatch h
  rcases hanswer with ⟨hpos, rfl⟩ | ⟨hpos, rfl⟩
  · exact hfresh.create hpos
  · exact hfresh.accept hpos

/-! ## Runs -/

/-- The step leaves every live id its descriptor, CLOSE_SOCKET of the id and END_TEST apart. -/
def Keeps (s : ProtocolServer) (i : Input) : Prop :=
  ∀ (id : UInt16) (fd : Int), s.sockets[id]? = some fd → s.endsTest i = false →
    s.closesId i ≠ some id → (s.step i).sockets[id]? = some fd

/-- A step that registers a socket finds the next id free. -/
def IdFree (s : ProtocolServer) (i : Input) : Prop :=
  s.registers i ≠ none → s.sockets[s.nextSocketId]? = none

theorem step_sound {i : Input} (hfresh : FreshFds s i) (h : s.table.Sound) (hl : s.table.Lossless) :
    (s.step i).table.Sound := by
  rw [step_table hfresh]
  split
  · exact Table.clear_sound h
  · have hclosed : (s.table.closeIf (s.closesId i)).Sound := by
      unfold Table.closeIf
      split
      · exact h
      split
      · exact h
      · next hid => exact Table.close_sound h hl hid
    cases hreg : s.registers i with
    | none => exact hclosed
    | some fd =>
      rw [(closesId_of_registers hreg).2]
      exact Table.register_sound h (registers_fresh hfresh hreg)

theorem step_lossless {i : Input} (hfresh : FreshFds s i) (h : s.table.Sound)
    (hl : s.table.Lossless) (hfree : IdFree s i) : (s.step i).table.Lossless := by
  rw [step_table hfresh]
  split
  · exact Table.clear_lossless hl
  · cases hreg : s.registers i with
    | none =>
      simp only [Table.registerIf, Table.closeIf]
      split
      · exact hl
      split
      · exact hl
      · next hid => exact Table.close_lossless hl hid
    | some fd =>
      rw [(closesId_of_registers hreg).2]
      exact Table.register_lossless h hl (registers_fresh hfresh hreg) (hfree (by simp [hreg]))

theorem step_keeps {i : Input} (hfresh : FreshFds s i) (hfree : IdFree s i) : Keeps s i := by
  intro id fd hid hend hclose
  have htable := congrArg Table.sockets (step_table hfresh)
  rw [hend, if_neg (by simp)] at htable
  rw [show (s.step i).sockets = _ from htable]
  cases hreg : s.registers i with
  | some fd' =>
    have hne : id ≠ s.nextSocketId := by
      rintro rfl
      rw [hfree (by simp [hreg])] at hid
      nomatch hid
    rw [(closesId_of_registers hreg).2]
    exact (Table.getElem?_register fd' id).trans ((if_neg hne).trans hid)
  | none =>
    simp only [Table.registerIf, Table.closeIf]
    split
    · exact hid
    · next id' hclosed =>
      split
      · exact hid
      · have hne : id ≠ id' := by
          rintro rfl
          exact hclose hclosed
        exact (Table.getElem?_close _ id' id).trans ((if_neg hne).trans hid)

/-- A registration under a live id is seen in the table at once. -/
theorem idFree_of_lossless {i : Input} (hfresh : FreshFds s i) (h : s.table.Sound)
    (hl : s.table.Lossless) (hnext : (s.step i).table.Lossless) : IdFree s i := by
  intro hreg
  obtain ⟨fd, hfd⟩ := Option.ne_none_iff_exists'.mp hreg
  by_contra hlive
  obtain ⟨fd₀, hfd₀⟩ := Option.ne_none_iff_exists'.mp hlive
  rw [step_table hfresh, (closesId_of_registers hfd).1, (closesId_of_registers hfd).2, hfd,
    if_neg (by simp)] at hnext
  exact Table.not_lossless_register h hl (registers_fresh hfresh hfd) hfd₀ hnext

instance (s : ProtocolServer) (i : Input) : Decidable (FreshFds s i) :=
  decidable_of_iff ((0 ≤ i.answers.create → i.answers.create ∉ s.openFds) ∧
    (0 ≤ i.answers.accept → i.answers.accept ∉ s.openFds)) ⟨fun h => ⟨h.1, h.2⟩, fun h => ⟨h.1, h.2⟩⟩

instance (s : ProtocolServer) (i : Input) : Decidable (IdFree s i) :=
  inferInstanceAs (Decidable (_ → _))

def createInput (fd : Int) : Input :=
  requestInput kGidTcp kPidCreateAndBind [0, 0, 0, 0, 0] { create := fd }

def closeInput (id : UInt16) : Input := requestInput kGidTcp kPidCloseSocket (appendU16 [] id) {}

/-- **The socket table loses nothing exactly while ids come free.** Over a run in which the backend
hands out only descriptors that are not open: every open descriptor is named by one id in every state
reached and ids keep their descriptors, if and only if every registration finds its id free. -/
theorem lossless_iff_ids_free (fd : Int) (is : List Input) (hfresh : Along step FreshFds (start fd) is) :
    ((∀ before after, is = before ++ after → ((start fd).run before).table.Lossless) ∧
      Along step Keeps (start fd) is) ↔ Along step IdFree (start fd) is := by
  have h := start_sound fd
  have hl := start_lossless fd
  generalize start fd = s at *
  induction is generalizing s with
  | nil =>
    refine ⟨fun _ => along_nil, fun _ => ⟨?_, along_nil⟩⟩
    intro before after heq
    rw [(List.append_eq_nil_iff.mp heq.symm).1]
    exact hl
  | cons i is ih =>
    have hsound := step_sound hfresh.head h hl
    constructor
    · rintro ⟨hall, hkeeps⟩
      have hnext : (s.step i).table.Lossless := hall [i] is rfl
      refine .cons (idFree_of_lossless hfresh.head h hl hnext) ?_
      refine (ih _ hfresh.tail hsound hnext).mp ⟨fun before after heq => ?_, hkeeps.tail⟩
      exact hall (i :: before) after (by rw [heq]; rfl)
    · intro hfree
      have hnext := step_lossless hfresh.head h hl hfree.head
      obtain ⟨hall, hkeeps⟩ := (ih _ hfresh.tail hsound hnext).mpr hfree.tail
      refine ⟨?_, .cons (step_keeps hfresh.head hfree.head) hkeeps⟩
      intro before after heq
      cases before with
      | nil => exact hl
      | cons i' before =>
        obtain ⟨rfl, htail⟩ := List.cons.inj heq
        exact hall before after htail

/-- Two sockets made, the first closed and its descriptor handed out again. -/
theorem lossless_iff_ids_free_reuse :
    (∀ before after,
      [createInput 10, createInput 11, closeInput 1, createInput 10] = before ++ after →
        ((start 3).run before).table.Lossless) ∧
    Along step Keeps (start 3) [createInput 10, createInput 11, closeInput 1, createInput 10] :=
  (lossless_iff_ids_free 3 _ (by decide +kernel)).mpr (by decide +kernel)

/-! ## The counter comes round -/

/-- `n` times a socket made and closed again, from the id `next`. -/
def churn : Nat → UInt16 → List Input
  | 0, _ => []
  | n + 1, next => createInput 11 :: closeInput next :: churn n (next + 1)

/-- One socket made, 65535 more each made and closed, and one more made: the counter is back at the
id of the first. -/
def wrapRun : List Input := createInput 10 :: (churn 65535 2 ++ [createInput 11])

/-- One socket is open and nothing is going on with it. -/
structure Held (s : ProtocolServer) (next : UInt16) : Prop where
  fd : s.fd = 3
  reactor : s.reactor = (start 3).reactor
  eventWatches : s.eventWatches = ∅
  pendingConnects : s.pendingConnects = ∅
  next : s.nextSocketId = next
  fds : s.openFds = {3, 10}
  sockets : ∀ id : UInt16, s.sockets[id]? = if id = 1 then some 10 else none

/-- The tables CREATE_AND_BIND does not touch. -/
theorem createAndBind_frame (dat : List UInt8) (tcp : Bool) :
    (s.createAndBind a dat tcp).1.reactor = s.reactor ∧
    (s.createAndBind a dat tcp).1.eventWatches = s.eventWatches ∧
    (s.createAndBind a dat tcp).1.pendingConnects = s.pendingConnects := by
  unfold createAndBind
  split
  · exact ⟨rfl, rfl, rfl⟩
  simp only
  split
  · exact ⟨rfl, rfl, rfl⟩
  split
  · split <;> exact ⟨rfl, rfl, rfl⟩
  · split <;> exact ⟨rfl, rfl, rfl⟩

/-- What a CREATE_AND_BIND leaves alone. -/
theorem createInput_frame (hfires : s.fires (.watch 1) = some .onControlReadable) (fd : Int) :
    (s.step (createInput fd)).reactor = s.reactor ∧
    (s.step (createInput fd)).eventWatches = s.eventWatches ∧
    (s.step (createInput fd)).pendingConnects = s.pendingConnects := by
  obtain ⟨response, hstep⟩ := step_requestInput hfires kGidTcp kPidCreateAndBind
    (show [0, 0, 0, 0, 0].length ≤ 2032 by decide) { create := fd } (by decide)
  rw [createInput, hstep]
  exact createAndBind_frame _ _

theorem eraseSocket_idle (hworkers : s.eventWatches = ∅) (hpending : s.pendingConnects = ∅)
    (id : UInt16) (abort : Bool) :
    (s.eraseSocket id abort).1.reactor = s.reactor ∧
    (s.eraseSocket id abort).1.eventWatches = ∅ ∧
    (s.eraseSocket id abort).1.pendingConnects = ∅ := by
  have hstop : s.stopWorker id = s := by simp [stopWorker, hworkers]
  have hdrop : s.dropPendingConnect id = s := by simp [dropPendingConnect, hpending]
  simp only [eraseSocket, hstop, hdrop]
  split <;> exact ⟨rfl, hworkers, hpending⟩

/-- What a CLOSE_SOCKET leaves alone where no worker runs and no connect is pending. -/
theorem closeInput_frame (hfires : s.fires (.watch 1) = some .onControlReadable)
    (hworkers : s.eventWatches = ∅) (hpending : s.pendingConnects = ∅) (id : UInt16) :
    (s.step (closeInput id)).reactor = s.reactor ∧
    (s.step (closeInput id)).eventWatches = ∅ ∧
    (s.step (closeInput id)).pendingConnects = ∅ := by
  have hprim : (requestMade kGidTcp kPidCloseSocket (appendU16 [] id)).primitive = .closeSocket := by
    rw [Request.primitive, requestMade, gidOf_methodId, pidOf_methodId]
    rfl
  obtain ⟨response, hstep⟩ := step_requestInput hfires kGidTcp kPidCloseSocket
    (show (appendU16 [] id).length ≤ 2032 by simp) {} (by rw [hprim]; decide)
  rw [closeInput, hstep, hprim]
  simp only [perform, noDat, closeSocket]
  split
  · exact ⟨rfl, hworkers, hpending⟩
  · exact eraseSocket_idle (s := s.act _) hworkers hpending _ _

theorem parseCloseSocket_appendU16 (id : UInt16) :
    parseCloseSocket (appendU16 [] id) = some ⟨id, false⟩ := by
  have hid : readU16 (appendU16 [] id) 0 = id := by
    have h : readU16 (appendU16 [] id ++ []) 0 = id := readU16_appendU16 id
    rwa [List.append_nil] at h
  simp [parseCloseSocket, hid]

theorem registers_createInput (hfires : s.fires (.watch 1) = some .onControlReadable) {fd : Int}
    (hpos : 0 ≤ fd) : s.registers (createInput fd) = some fd := by
  rw [registers, createInput, request_requestInput hfires kGidTcp kPidCreateAndBind
    (show [0, 0, 0, 0, 0].length ≤ 2032 by decide) { create := fd }]
  exact if_neg (by rintro (hneg | ⟨hbind, -⟩); exacts [absurd hpos (not_le.mpr hneg), (by cases hbind)])

theorem table_createInput (hfires : s.fires (.watch 1) = some .onControlReadable) {fd : Int}
    (hpos : 0 ≤ fd) (hfresh : FreshFds s (createInput fd)) :
    (s.step (createInput fd)).table = s.table.register fd := by
  have hregisters := registers_createInput hfires hpos
  obtain ⟨hends, hcloses⟩ := closesId_of_registers hregisters
  rw [step_table hfresh, hends, hcloses, hregisters]
  rfl

theorem table_closeInput (hfires : s.fires (.watch 1) = some .onControlReadable) {id : UInt16}
    {fd : Int} (hlive : s.sockets[id]? = some fd) :
    FreshFds s (closeInput id) ∧ (s.step (closeInput id)).table = s.table.close id fd := by
  have hfresh : FreshFds s (closeInput id) :=
    ⟨fun hneg => absurd (show (0 : Int) ≤ -1 from hneg) (by decide),
      fun hneg => absurd (show (0 : Int) ≤ -1 from hneg) (by decide)⟩
  have hreq := request_requestInput hfires kGidTcp kPidCloseSocket
    (show (appendU16 [] id).length ≤ 2032 by simp) {}
  have hprim : (requestMade kGidTcp kPidCloseSocket (appendU16 [] id)).primitive = .closeSocket := by
    rw [Request.primitive, requestMade, gidOf_methodId, pidOf_methodId]
    rfl
  have hends : s.endsTest (closeInput id) = false := by
    rw [endsTest, closeInput, hreq]
    simp [hprim]
  have hcloses : s.closesId (closeInput id) = some id := by
    rw [closesId, closeInput, hreq]
    simp only [hprim]
    rw [requestMade, parseCloseSocket_appendU16]
    rfl
  have hregisters : s.registers (closeInput id) = none := by
    rw [registers, closeInput, hreq]
    simp only [hprim]
  refine ⟨hfresh, ?_⟩
  rw [step_table hfresh, hends, hcloses, hregisters, if_neg (by simp), Table.closeIf,
    show s.table.sockets[id]? = some fd from hlive]
  rfl

theorem Held.fires {next : UInt16} (h : Held s next) :
    s.fires (.watch 1) = some .onControlReadable := by
  rw [ProtocolServer.fires, h.reactor]
  rfl

theorem Held.fresh {next : UInt16} (h : Held s next) : FreshFds s (createInput 11) where
  create := by
    intro _
    rw [h.fds]
    decide
  accept := fun hneg => absurd (show (0 : Int) ≤ -1 from hneg) (by decide)

/-- A socket made and closed again: the counter has moved on, the rest is as it was. -/
theorem Held.churned {next : UInt16} (h : Held s next) (hne : next ≠ 1) :
    Along step FreshFds s [createInput 11, closeInput next] ∧
    Held ((s.step (createInput 11)).step (closeInput next)) (next + 1) := by
  have hmade := table_createInput h.fires (by decide) h.fresh
  obtain ⟨hreactor, hworkers, hpending⟩ := createInput_frame h.fires 11
  have hfires : (s.step (createInput 11)).fires (.watch 1) = some .onControlReadable := by
    rw [ProtocolServer.fires, hreactor]
    exact h.fires
  have hlive : (s.step (createInput 11)).sockets[next]? = some 11 := by
    rw [show (s.step (createInput 11)).sockets = _ from congrArg Table.sockets hmade,
      Table.getElem?_register]
    exact if_pos h.next.symm
  obtain ⟨hfresh, hclosed⟩ := table_closeInput hfires hlive
  rw [hmade] at hclosed
  obtain ⟨hreactor', hworkers', hpending'⟩ := closeInput_frame hfires
    (hworkers.trans h.eventWatches) (hpending.trans h.pendingConnects) next
  refine ⟨.cons h.fresh (.cons hfresh along_nil), ?_⟩
  generalize (s.step (createInput 11)).step (closeInput next) = closed at *
  exact
    { fd := (congrArg Table.fd hclosed).trans h.fd
      reactor := hreactor'.trans (hreactor.trans h.reactor)
      eventWatches := hworkers'
      pendingConnects := hpending'
      next := (congrArg Table.nextSocketId hclosed).trans (congrArg (· + 1) h.next)
      fds := by
        refine (congrArg Table.fds hclosed).trans ?_
        exact (Finset.erase_insert (show (11 : Int) ∉ s.openFds by rw [h.fds]; decide)).trans h.fds
      sockets := by
        intro id
        rw [show closed.sockets = _ from congrArg Table.sockets hclosed, Table.getElem?_close,
          Table.getElem?_register, show s.table.nextSocketId = next from h.next]
        by_cases hid : id = next
        · rw [if_pos hid, if_neg (by rw [hid]; exact hne)]
        · rw [if_neg hid, if_neg hid]
          exact h.sockets id }

theorem Held.churn {next : UInt16} (h : Held s next) (n : Nat)
    (hne : ∀ k < n, next + UInt16.ofNat k ≠ 1) :
    Along step FreshFds s (churn n next) ∧
    Held (s.run (ProtocolServer.churn n next)) (next + UInt16.ofNat n) := by
  induction n generalizing s next with
  | zero =>
    refine ⟨along_nil, ?_⟩
    rw [show next + UInt16.ofNat 0 = next by simp]
    exact h
  | succ n ih =>
    obtain ⟨hfresh, hnext⟩ := h.churned (by simpa using hne 0 (by omega))
    have hadd : ∀ k, next + 1 + UInt16.ofNat k = next + UInt16.ofNat (k + 1) := by
      intro k
      rw [UInt16.add_assoc, Nat.add_comm k 1, UInt16.ofNat_add]
      rfl
    obtain ⟨hrest, hheld⟩ := ih hnext (fun k hk => by rw [hadd]; exact hne (k + 1) (by omega))
    rw [hadd] at hheld
    exact ⟨.cons hfresh.head (.cons hfresh.tail.head hrest), hheld⟩

theorem held_first : Held ((start 3).step (createInput 10)) 2 := by
  have hfires : (start 3).fires (.watch 1) = some .onControlReadable := rfl
  obtain ⟨hreactor, hworkers, hpending⟩ := createInput_frame hfires 10
  have htable := table_createInput hfires (show (0 : Int) ≤ 10 by decide) (by decide +kernel)
  generalize (start 3).step (createInput 10) = made at *
  exact
    { fd := congrArg Table.fd htable
      reactor := hreactor
      eventWatches := hworkers
      pendingConnects := hpending
      next := congrArg Table.nextSocketId htable
      fds := (congrArg Table.fds htable).trans (by decide)
      sockets := by
        intro id
        rw [show made.sockets = _ from congrArg Table.sockets htable, Table.getElem?_register]
        rfl }

theorem Held.lossless {next : UInt16} (h : Held s next) : s.table.Sound ∧ s.table.Lossless := by
  have hlookup : ∀ (id : UInt16) (fd : Int), s.table.sockets[id]? = some fd → id = 1 ∧ fd = 10 := by
    intro id fd hid
    rw [show s.table.sockets[id]? = _ from h.sockets id] at hid
    split at hid
    · next hone => exact ⟨hone, (Option.some.inj hid).symm⟩
    · nomatch hid
  refine ⟨⟨?_, ?_⟩, .of_named ?_ ?_⟩
  · rw [show s.table.fd = 3 from h.fd, show s.table.fds = _ from h.fds]
    decide
  · intro id fd hid
    rw [(hlookup id fd hid).2, show s.table.fds = _ from h.fds, show s.table.fd = 3 from h.fd]
    decide
  · intro fd hopen hfd
    rw [show s.table.fds = _ from h.fds] at hopen
    rw [show s.table.fd = 3 from h.fd] at hfd
    simp only [Finset.mem_insert, Finset.mem_singleton] at hopen
    rcases hopen with hcontrol | rfl
    · exact absurd hcontrol hfd
    · exact ⟨1, h.sockets 1⟩
  · intro id id' fd hid hid'
    rw [(hlookup id fd hid).1, (hlookup id' fd hid').1]

theorem Held.loses (h : Held s 1) : ¬ (s.step (createInput 11)).table.Lossless := by
  intro hlast
  have hreg : s.registers (createInput 11) ≠ none := by
    rw [registers_createInput h.fires (by decide)]
    exact Option.some_ne_none _
  have hfree := idFree_of_lossless h.fresh h.lossless.1 h.lossless.2 hlast hreg
  rw [h.next, h.sockets] at hfree
  nomatch hfree

theorem run_between (first last : Input) (is : List Input) :
    s.run (first :: (is ++ [last])) = ((s.step first).run is).step last := by
  simp [run]

/-- **A live id is given out again.** After 65536 registrations the counter is back at the id of the
socket made first and never closed, and the next registration overwrites its entry. -/
theorem wrapRun_loses :
    Along step FreshFds (start 3) wrapRun ∧
    ¬ ((∀ before after, wrapRun = before ++ after → ((start 3).run before).table.Lossless) ∧
      Along step Keeps (start 3) wrapRun) := by
  have hids : ∀ k < 65535, (2 : UInt16) + UInt16.ofNat k ≠ 1 := by
    intro k hk heq
    have hnat := congrArg UInt16.toNat heq
    rw [UInt16.toNat_add, UInt16.toNat_ofNat'] at hnat
    simp at hnat
    omega
  obtain ⟨hchurn, hheld⟩ := held_first.churn 65535 hids
  rw [show (2 : UInt16) + UInt16.ofNat 65535 = 1 by decide] at hheld
  rw [wrapRun]
  generalize churn 65535 2 = churned at *
  constructor
  · exact .cons (by decide +kernel) (hchurn.append (.cons hheld.fresh along_nil))
  · rintro ⟨hall, -⟩
    have hlast := hall _ [] (List.append_nil _).symm
    rw [run_between] at hlast
    exact hheld.loses hlast

end ProtocolServer

end Tc8Harness.Testability
