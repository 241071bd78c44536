import Tc8Harness.Lib.Hoare
import Tc8Harness.Lib.Observe
import Tc8Harness.UpperTester.Server

/-!
# The TCP slot table

`Owned`: the TCP sockets that are open are those of the slots, each in one slot, and the ones the running
operation holds in its hands (`loose`). Every operation of the server keeps it, an open on the condition
that the next id is free; between two steps nothing is loose.
-/

namespace Tc8Harness.UpperTester

open BigEndian Wire Someip Hoare Observe
open Testability (Endpoint RecvEnd)

/-! ## What the log says -/

def noteLive (fds : List Int) : SocketEvent → List Int
  | .created fd => fds ++ [fd]
  | .accepted fd => fds ++ [fd]
  | .closed fd => fds.filter (· ≠ fd)
  | .opened _ _ => fds
  | .tornDown _ => fds

/-- The TCP sockets made or accepted and not yet closed. -/
def live (log : List SocketEvent) : List Int := log.foldl noteLive []

def noteName (names : List (UInt8 × Int)) : SocketEvent → List (UInt8 × Int)
  | .opened sid fd => names ++ [(sid, fd)]
  | .tornDown sid => names.filter (·.1 ≠ sid)
  | .created _ => names
  | .accepted _ => names
  | .closed _ => names

/-- The ids that opens returned, each with the socket it was returned for, until its Close or Abort. -/
def names (log : List SocketEvent) : List (UInt8 × Int) := log.foldl noteName []

def TcpSlot.Holds (slot : TcpSlot) (fd : Int) : Prop :=
  0 ≤ fd ∧ (slot.listenFd = fd ∨ slot.acceptedFd = fd)

/-- The slot `sid` of the table has the socket `fd`. -/
def Server.Holds {σ : Type} (s : Server σ) (sid : UInt8) (fd : Int) : Prop :=
  ∃ slot : TcpSlot, s.tcpSlots[sid]? = some slot ∧ slot.Holds fd

/-- **No socket is lost**: every open socket is in exactly one slot, every id that was given out names
the slot of its socket, and no id was given out twice. -/
structure Kept {σ : Type} (s : Server σ) : Prop where
  oneSlot : ∀ fd ∈ live s.log, ∃! sid, s.Holds sid fd
  named : ∀ sid fd, (sid, fd) ∈ names s.log → s.Holds sid fd
  distinct : ((names s.log).map Prod.fst).Nodup

/-! ## The backend -/

variable {σ : Type}

/-- The backend hands out descriptors that are not open, and keeps them open until they are closed. -/
structure FreshFds (env : Env σ) (isOpen : σ → Int → Prop) : Prop where
  created : ∀ {α : Type} (op : Op α) (net : σ) (fd : Int),
    .created fd ∈ op.events (env.run op net).1 ∨ .accepted fd ∈ op.events (env.run op net).1 →
      ¬ isOpen net fd ∧ isOpen (env.run op net).2 fd
  createUdp : ∀ net : σ, 0 ≤ (env.run .createUdp net).1 → ¬ isOpen net (env.run .createUdp net).1
  kept : ∀ {α : Type} (op : Op α) (net : σ) (fd : Int),
    .closed fd ∉ op.events (env.run op net).1 → isOpen net fd → isOpen (env.run op net).2 fd

/-! ## The invariant -/

/-- The open TCP sockets are those in `loose` and those of the slots. -/
structure Owned (isOpen : σ → Int → Prop) (loose : List Int) (s : Server σ) : Prop where
  nonneg : ∀ fd ∈ loose, 0 ≤ fd
  mem_live : ∀ fd, fd ∈ live s.log ↔ fd ∈ loose ∨ ∃ sid, s.Holds sid fd
  apart : ∀ fd ∈ loose, ∀ sid, ¬ s.Holds sid fd
  disjoint : ∀ sid sid' fd, s.Holds sid fd → s.Holds sid' fd → sid = sid'
  isOpen : ∀ fd ∈ live s.log, isOpen s.net fd
  named : ∀ sid fd, (sid, fd) ∈ names s.log → s.Holds sid fd
  distinct : ((names s.log).map Prod.fst).Nodup
  waiting : ∀ (sid : UInt8) (slot : TcpSlot), s.tcpSlots[sid]? = some slot → slot.accepting = true →
    slot.acceptedFd < 0

section Owned

variable {isOpen : σ → Int → Prop} {loose loose' : List Int} {s s' : Server σ}

theorem Owned.toKept (h : Owned isOpen [] s) : Kept s := by
  refine ⟨fun fd hfd => ?_, h.named, h.distinct⟩
  obtain hloose | ⟨sid, hholds⟩ := (h.mem_live fd).mp hfd
  · exact absurd hloose List.not_mem_nil
  · exact ⟨sid, hholds, fun sid' hholds' => h.disjoint sid' sid fd hholds' hholds⟩

/-- Only the table, the log and what is open matter. -/
theorem Owned.congr (h : Owned isOpen loose s) (hslots : s'.tcpSlots = s.tcpSlots)
    (hlog : s'.log = s.log) (hopen : ∀ fd ∈ live s.log, isOpen s.net fd → isOpen s'.net fd) :
    Owned isOpen loose s' := by
  have hholds : s'.Holds = s.Holds := by
    unfold Server.Holds
    rw [hslots]
  refine ⟨h.nonneg, ?_, ?_, ?_, ?_, ?_, ?_, ?_⟩
  · rw [hlog, hholds]
    exact h.mem_live
  · rw [hholds]
    exact h.apart
  · rw [hholds]
    exact h.disjoint
  · rw [hlog]
    exact fun fd hfd => hopen fd hfd (h.isOpen fd hfd)
  · rw [hlog, hholds]
    exact h.named
  · rw [hlog]
    exact h.distinct
  · rw [hslots]
    exact h.waiting

theorem live_concat (log : List SocketEvent) (ev : SocketEvent) :
    live (log ++ [ev]) = noteLive (live log) ev := by
  rw [live, List.foldl_append, List.foldl_cons, List.foldl_nil, ← live]

theorem names_concat (log : List SocketEvent) (ev : SocketEvent) :
    names (log ++ [ev]) = noteName (names log) ev := by
  rw [names, List.foldl_append, List.foldl_cons, List.foldl_nil, ← names]

/-! ## Changes of the table -/

theorem holds_insert {sid : UInt8} {slot : TcpSlot} (h : s'.tcpSlots = s.tcpSlots.insert sid slot)
    (sid' : UInt8) (fd : Int) :
    s'.Holds sid' fd ↔ if sid' = sid then slot.Holds fd else s.Holds sid' fd := by
  unfold Server.Holds
  rw [h, TreeTable.getElem?_insert]
  split <;> simp

/-- What was loose goes into a slot. -/
theorem Owned.insert (h : Owned isOpen loose s) {sid : UInt8} {slot : TcpSlot}
    (hslots : s'.tcpSlots = s.tcpSlots.insert sid slot) (hlog : s'.log = s.log) (hnet : s'.net = s.net)
    (hgains : ∀ fd, slot.Holds fd ↔ fd ∈ loose ∨ s.Holds sid fd)
    (hwaits : slot.accepting = true → slot.acceptedFd < 0) : Owned isOpen [] s' := by
  have hholds : ∀ sid' fd, s'.Holds sid' fd ↔ s.Holds sid' fd ∨ (sid' = sid ∧ fd ∈ loose) := by
    intro sid' fd
    rw [holds_insert hslots, hgains]
    split
    · next heq => rw [heq]; tauto
    · next hne => tauto
  refine ⟨by simp, fun fd => ?_, by simp, ?_, ?_, ?_, ?_, ?_⟩
  · rw [hlog, h.mem_live]
    simp only [hholds, List.not_mem_nil, false_or]
    constructor
    · rintro (hloose | ⟨sid', hslot⟩)
      · exact ⟨sid, .inr ⟨rfl, hloose⟩⟩
      · exact ⟨sid', .inl hslot⟩
    · rintro ⟨sid', hslot | ⟨-, hloose⟩⟩
      · exact .inr ⟨sid', hslot⟩
      · exact .inl hloose
  · intro sid₁ sid₂ fd h₁ h₂
    rw [hholds] at h₁ h₂
    rcases h₁ with h₁ | ⟨rfl, h₁⟩
    · rcases h₂ with h₂ | ⟨rfl, h₂⟩
      · exact h.disjoint sid₁ sid₂ fd h₁ h₂
      · exact absurd h₁ (h.apart fd h₂ sid₁)
    · rcases h₂ with h₂ | ⟨rfl, -⟩
      · exact absurd h₂ (h.apart fd h₁ sid₂)
      · rfl
  · rw [hlog, hnet]
    exact h.isOpen
  · intro sid' fd hname
    rw [hlog] at hname
    exact (hholds sid' fd).mpr (.inl (h.named sid' fd hname))
  · rw [hlog]
    exact h.distinct
  · intro sid' slot' hslot' hacc
    rw [hslots, TreeTable.getElem?_insert] at hslot'
    split at hslot'
    · obtain rfl := Option.some.inj hslot'
      exact hwaits hacc
    · exact h.waiting sid' slot' hslot' hacc

/-- The id of a slot is given out. -/
theorem Owned.opened (h : Owned isOpen loose s) {sid : UInt8} {fd : Int} (hholds : s.Holds sid fd)
    (hnew : ∀ fd', (sid, fd') ∉ names s.log) (next : UInt8) :
    Owned isOpen loose { s with nextTcpSocketId := next, log := s.log ++ [.opened sid fd] } := by
  have hlive : live (s.log ++ [.opened sid fd]) = live s.log := live_concat s.log _
  have hnames : names (s.log ++ [.opened sid fd]) = names s.log ++ [(sid, fd)] := names_concat s.log _
  refine ⟨h.nonneg, ?_, h.apart, h.disjoint, ?_, ?_, ?_, h.waiting⟩
  · intro fd'
    rw [hlive]
    exact h.mem_live fd'
  · rw [hlive]
    exact h.isOpen
  · intro sid' fd' hname
    rw [hnames, List.mem_append, List.mem_singleton] at hname
    rcases hname with hname | hname
    · exact h.named sid' fd' hname
    · obtain ⟨rfl, rfl⟩ := Prod.mk.inj hname
      exact hholds
  · rw [hnames, List.map_append, List.nodup_append]
    refine ⟨h.distinct, by simp, ?_⟩
    intro sid' hsid' sid'' hsid''
    obtain ⟨⟨_, fd'⟩, hname, rfl⟩ := List.mem_map.mp hsid'
    obtain rfl : sid'' = sid := by simpa using hsid''
    rintro rfl
    exact hnew fd' hname

/-- What a slot has, to be closed. -/
def TcpSlot.fds (slot : TcpSlot) : List Int := [slot.acceptedFd, slot.listenFd].filter (0 ≤ ·)

theorem TcpSlot.mem_fds {slot : TcpSlot} {fd : Int} : fd ∈ slot.fds ↔ slot.Holds fd := by
  simp only [TcpSlot.fds, TcpSlot.Holds, List.mem_filter, List.mem_cons, List.not_mem_nil, or_false,
    decide_eq_true_eq]
  constructor
  · rintro ⟨h | h, hnonneg⟩
    · exact ⟨hnonneg, .inr h.symm⟩
    · exact ⟨hnonneg, .inl h.symm⟩
  · rintro ⟨hnonneg, h | h⟩
    · exact ⟨.inr h.symm, hnonneg⟩
    · exact ⟨.inl h.symm, hnonneg⟩

/-- A slot leaves the table with its sockets in the operation's hands. -/
theorem Owned.take (h : Owned isOpen [] s) {sid : UInt8} {slot : TcpSlot}
    (hslot : s.tcpSlots[sid]? = some slot) :
    Owned isOpen slot.fds { s with tcpSlots := s.tcpSlots.erase sid, log := s.log ++ [.tornDown sid] } := by
  have hlive : live (s.log ++ [.tornDown sid]) = live s.log := live_concat s.log _
  have hnames : names (s.log ++ [.tornDown sid]) = (names s.log).filter (·.1 ≠ sid) :=
    names_concat s.log _
  have hown : ∀ fd, s.Holds sid fd ↔ slot.Holds fd := by
    intro fd
    unfold Server.Holds
    rw [hslot]
    simp
  generalize ht : ({ s with tcpSlots := s.tcpSlots.erase sid, log := s.log ++ [.tornDown sid] } :
    Server σ) = t
  have hlog : t.log = s.log ++ [.tornDown sid] := by rw [← ht]
  have hnet : t.net = s.net := by rw [← ht]
  have hget : ∀ sid' : UInt8, t.tcpSlots[sid']? = if sid' = sid then none else s.tcpSlots[sid']? := by
    intro sid'
    rw [← ht]
    exact TreeTable.getElem?_erase sid sid'
  have hholds : ∀ sid' fd, t.Holds sid' fd ↔ sid' ≠ sid ∧ s.Holds sid' fd := by
    intro sid' fd
    unfold Server.Holds
    rw [hget]
    split <;> simp_all
  refine ⟨fun fd hfd => (TcpSlot.mem_fds.mp hfd).1, fun fd => ?_, ?_, ?_, ?_, ?_, ?_, ?_⟩
  · rw [hlog, hlive, h.mem_live, TcpSlot.mem_fds]
    simp only [hholds, List.not_mem_nil, false_or]
    constructor
    · rintro ⟨sid', hslot'⟩
      by_cases heq : sid' = sid
      · exact .inl ((hown fd).mp (heq ▸ hslot'))
      · exact .inr ⟨sid', heq, hslot'⟩
    · rintro (hslot' | ⟨sid', -, hslot'⟩)
      · exact ⟨sid, (hown fd).mpr hslot'⟩
      · exact ⟨sid', hslot'⟩
  · intro fd hfd sid' hslot'
    obtain ⟨hne, hslot'⟩ := (hholds sid' fd).mp hslot'
    exact hne (h.disjoint sid' sid fd hslot' ((hown fd).mpr (TcpSlot.mem_fds.mp hfd)))
  · intro sid₁ sid₂ fd h₁ h₂
    exact h.disjoint sid₁ sid₂ fd ((hholds sid₁ fd).mp h₁).2 ((hholds sid₂ fd).mp h₂).2
  · rw [hlog, hlive, hnet]
    exact h.isOpen
  · intro sid' fd hname
    rw [hlog, hnames, List.mem_filter] at hname
    exact (hholds sid' fd).mpr ⟨by simpa using hname.2, h.named sid' fd hname.1⟩
  · rw [hlog, hnames]
    exact h.distinct.sublist (List.filter_sublist.map _)
  · intro sid' slot' hslot' hacc
    rw [hget] at hslot'
    split at hslot'
    · nomatch hslot'
    · exact h.waiting sid' slot' hslot' hacc

end Owned

/-! ## Calls -/

/-- `Owned`, in a server whose table is `slots` and whose next id is `next`. -/
def Held (isOpen : σ → Int → Prop) (slots : Std.TreeMap UInt8 TcpSlot) (next : UInt8) (loose : List Int)
    (s : Server σ) : Prop :=
  Owned isOpen loose s ∧ s.tcpSlots = slots ∧ s.nextTcpSocketId = next

section Calls

variable {env : Env σ} {isOpen : σ → Int → Prop} {slots : Std.TreeMap UInt8 TcpSlot} {next : UInt8}
  {loose : List Int} {s : Server σ} {α : Type} {op : Op α} {fd : Int}

/-- The server behind a call of the backend. -/
def Server.called (s : Server σ) (env : Env σ) (op : Op α) : Server σ :=
  { s with net := (env.run op s.net).2, log := s.log ++ op.events (env.run op s.net).1 }

theorem ensures_call {P : Server σ → Prop} {Q : α → Server σ → Prop}
    (h : ∀ s, P s → Q (env.run op s.net).1 (s.called env op)) : Ensures P (call env op) Q :=
  fun s hs => ⟨_, _, rfl, h s hs⟩

variable (env) in
theorem answers_call (op : Op α) : Answers (call env op) := ensures_call fun _ _ => trivial

variable (hfresh : FreshFds env isOpen)

include hfresh

/-- A call that neither makes nor closes a socket. -/
theorem Owned.quiet (h : Owned isOpen loose s) (hev : op.events (env.run op s.net).1 = []) :
    Owned isOpen loose (s.called env op) := by
  refine h.congr rfl ?_ ?_
  · change s.log ++ op.events (env.run op s.net).1 = s.log
    rw [hev, List.append_nil]
  · intro fd _ hopen
    exact hfresh.kept op s.net fd (by rw [hev]; exact List.not_mem_nil) hopen

theorem call_quiet (hop : ∀ a, op.events a = []) :
    Ensures (Held isOpen slots next loose) (call env op) fun _ => Held isOpen slots next loose :=
  ensures_call fun _ ⟨h, hslots, hnext⟩ => ⟨h.quiet hfresh (hop _), hslots, hnext⟩

/-- A call that makes a socket puts it into the operation's hands. -/
theorem Owned.made (h : Owned isOpen loose s) (hnonneg : 0 ≤ fd)
    (hev : op.events (env.run op s.net).1 = [.created fd] ∨
      op.events (env.run op s.net).1 = [.accepted fd]) :
    Owned isOpen (fd :: loose) (s.called env op) := by
  obtain ⟨hclosed, hopened⟩ : ¬ isOpen s.net fd ∧ isOpen (env.run op s.net).2 fd := by
    refine hfresh.created op s.net fd ?_
    rcases hev with hev | hev <;> simp [hev]
  have hnot : ∀ sid, ¬ s.Holds sid fd := fun sid hholds =>
    hclosed (h.isOpen fd ((h.mem_live fd).mpr (.inr ⟨sid, hholds⟩)))
  have hkeeps : ∀ fd', isOpen s.net fd' → isOpen (env.run op s.net).2 fd' := by
    intro fd'
    refine hfresh.kept op s.net fd' ?_
    rcases hev with hev | hev <;> simp [hev]
  have hlive : live (s.log ++ op.events (env.run op s.net).1) = live s.log ++ [fd] := by
    rcases hev with hev | hev <;> rw [hev] <;> exact live_concat s.log _
  have hnames : names (s.log ++ op.events (env.run op s.net).1) = names s.log := by
    rcases hev with hev | hev <;> rw [hev] <;> exact names_concat s.log _
  refine ⟨?_, ?_, ?_, h.disjoint, ?_, ?_, ?_, h.waiting⟩
  · intro fd' hfd'
    rcases List.mem_cons.mp hfd' with rfl | hfd'
    · exact hnonneg
    · exact h.nonneg fd' hfd'
  · intro fd'
    change fd' ∈ live (s.log ++ op.events (env.run op s.net).1) ↔ fd' ∈ fd :: loose ∨ ∃ sid, s.Holds sid fd'
    rw [hlive, List.mem_append, h.mem_live, List.mem_singleton, List.mem_cons]
    tauto
  · intro fd' hfd'
    rcases List.mem_cons.mp hfd' with rfl | hfd'
    · exact hnot
    · exact h.apart fd' hfd'
  · intro fd' hfd'
    change fd' ∈ live (s.log ++ op.events (env.run op s.net).1) at hfd'
    rw [hlive, List.mem_append, List.mem_singleton] at hfd'
    rcases hfd' with hfd' | rfl
    · exact hkeeps fd' (h.isOpen fd' hfd')
    · exact hopened
  · intro sid fd' hname
    change (sid, fd') ∈ names (s.log ++ op.events (env.run op s.net).1) at hname
    rw [hnames] at hname
    exact h.named sid fd' hname
  · change ((names (s.log ++ op.events (env.run op s.net).1)).map Prod.fst).Nodup
    rw [hnames]
    exact h.distinct

/-- A socket that is in no slot is closed. -/
theorem Owned.shut (h : Owned isOpen loose s) (hfree : ∀ sid, ¬ s.Holds sid fd)
    (hev : op.events (env.run op s.net).1 = [.closed fd]) :
    Owned isOpen (loose.filter (· ≠ fd)) (s.called env op) := by
  have hkeeps : ∀ fd', fd' ≠ fd → isOpen s.net fd' → isOpen (env.run op s.net).2 fd' := by
    intro fd' hne
    refine hfresh.kept op s.net fd' ?_
    rw [hev, List.mem_singleton]
    intro heq
    exact hne (SocketEvent.closed.inj heq)
  have hlive : live (s.log ++ op.events (env.run op s.net).1) = (live s.log).filter (· ≠ fd) := by
    rw [hev]
    exact live_concat s.log _
  have hnames : names (s.log ++ op.events (env.run op s.net).1) = names s.log := by
    rw [hev]
    exact names_concat s.log _
  refine ⟨?_, ?_, ?_, h.disjoint, ?_, ?_, ?_, h.waiting⟩
  · intro fd' hfd'
    exact h.nonneg fd' (List.mem_of_mem_filter hfd')
  · intro fd'
    change fd' ∈ live (s.log ++ op.events (env.run op s.net).1) ↔
      fd' ∈ loose.filter (· ≠ fd) ∨ ∃ sid, s.Holds sid fd'
    rw [hlive, List.mem_filter, List.mem_filter, h.mem_live]
    constructor
    · rintro ⟨hloose | hslot, hne⟩
      · exact .inl ⟨hloose, hne⟩
      · exact .inr hslot
    · rintro (⟨hloose, hne⟩ | ⟨sid, hslot⟩)
      · exact ⟨.inl hloose, hne⟩
      · refine ⟨.inr ⟨sid, hslot⟩, ?_⟩
        rw [decide_eq_true_eq]
        rintro rfl
        exact hfree sid hslot
  · intro fd' hfd'
    exact h.apart fd' (List.mem_of_mem_filter hfd')
  · intro fd' hfd'
    change fd' ∈ live (s.log ++ op.events (env.run op s.net).1) at hfd'
    rw [hlive, List.mem_filter, decide_eq_true_eq] at hfd'
    exact hkeeps fd' hfd'.2 (h.isOpen fd' hfd'.1)
  · intro sid fd' hname
    change (sid, fd') ∈ names (s.log ++ op.events (env.run op s.net).1) at hname
    rw [hnames] at hname
    exact h.named sid fd' hname
  · change ((names (s.log ++ op.events (env.run op s.net).1)).map Prod.fst).Nodup
    rw [hnames]
    exact h.distinct

/-- What an operation holds once it has asked for a socket. -/
def handed (fd : Int) (loose : List Int) : List Int := if fd < 0 then loose else fd :: loose

theorem call_createTcp : Ensures (Held isOpen slots next loose) (call env .createTcp)
    fun fd => Held isOpen slots next (handed fd loose) := by
  refine ensures_call fun s ⟨h, hslots, hnext⟩ => ⟨?_, hslots, hnext⟩
  unfold handed
  split
  · next hneg => exact h.quiet hfresh (if_neg (not_le.mpr hneg))
  · next hnonneg => exact h.made hfresh (not_lt.mp hnonneg) (.inl (if_pos (not_lt.mp hnonneg)))

theorem call_accept : Ensures (Held isOpen slots next loose) (call env (.accept fd))
    fun conn => Held isOpen slots next (handed conn loose) := by
  refine ensures_call fun s ⟨h, hslots, hnext⟩ => ⟨?_, hslots, hnext⟩
  unfold handed
  split
  · next hneg => exact h.quiet hfresh (if_neg (not_le.mpr hneg))
  · next hnonneg => exact h.made hfresh (not_lt.mp hnonneg) (.inr (if_pos (not_lt.mp hnonneg)))

/-- No slot has the descriptor. -/
def Unheld (slots : Std.TreeMap UInt8 TcpSlot) (fd : Int) : Prop :=
  ∀ (sid : UInt8) (slot : TcpSlot), slots[sid]? = some slot → ¬ slot.Holds fd

omit hfresh in
theorem Held.unheld (h : Held isOpen slots next loose s) (hfd : fd ∈ loose) : Unheld slots fd := by
  obtain ⟨h, rfl, -⟩ := h
  exact fun sid slot hslot hholds => h.apart fd hfd sid ⟨slot, hslot, hholds⟩

theorem call_close (hop : ∀ a, op.events a = [.closed fd]) (hfree : Unheld slots fd) :
    Ensures (Held isOpen slots next loose) (call env op)
      fun _ => Held isOpen slots next (loose.filter (· ≠ fd)) := by
  refine ensures_call fun s ⟨h, hslots, hnext⟩ => ⟨h.shut hfresh ?_ (hop _), hslots, hnext⟩
  rintro sid ⟨slot, hslot, hholds⟩
  exact hfree sid slot (hslots ▸ hslot) hholds

/-- A UDP socket is none of the table's. -/
theorem call_createUdp : Ensures (Held isOpen slots next loose) (call env .createUdp)
    fun fd s => (0 ≤ fd → Unheld slots fd) ∧ Held isOpen slots next loose s := by
  refine ensures_call fun s ⟨h, hslots, hnext⟩ => ⟨?_, h.quiet hfresh rfl, hslots, hnext⟩
  intro hnonneg sid slot hslot hholds
  subst hslots
  exact hfresh.createUdp s.net hnonneg
    (h.isOpen _ ((h.mem_live _).mpr (.inr ⟨sid, slot, hslot, hholds⟩)))

/-! ## Opening -/

omit hfresh in
theorem filter_ne_singleton (fd : Int) : [fd].filter (· ≠ fd) = [] := by simp

/-- The only socket in hand is closed again. -/
theorem close_made : Ensures (Held isOpen slots next [fd])
    (do call env (.closeFd fd); return (none : Option Int))
    fun made => Held isOpen slots next made.toList := by
  intro s hs
  have hfree : Unheld slots fd := hs.unheld (List.mem_singleton_self fd)
  have hclose : Ensures (Held isOpen slots next [fd]) (call env (.closeFd fd))
      fun _ => Held isOpen slots next ([fd].filter (· ≠ fd)) := call_close hfresh (fun _ => rfl) hfree
  refine (hclose.bind fun _ => ?_) s hs
  rw [filter_ne_singleton]
  exact ensures_pure fun _ h => h

theorem boundSocket_held (addrBe : UInt32) (localPort : UInt16) :
    Ensures (Held isOpen slots next []) (boundSocket env addrBe localPort)
      fun made => Held isOpen slots next made.toList := by
  refine (call_createTcp hfresh).bind fun fd => ensures_ite (fun hneg => ?_) fun hnonneg => ?_
  · refine ensures_pure fun s hs => ?_
    rwa [handed, if_pos hneg] at hs
  · rw [handed, if_neg hnonneg]
    refine (call_quiet hfresh fun _ => rfl).bind fun _ => ?_
    refine (call_quiet hfresh fun _ => rfl).bind fun bound => ensures_ite (fun _ => ?_) fun _ => ?_
    · exact ensures_pure fun s hs => hs
    · exact close_made hfresh

theorem passiveSocket_held (localPort : UInt16) :
    Ensures (Held isOpen slots next []) (passiveSocket env localPort)
      fun made => Held isOpen slots next made.toList := by
  refine (boundSocket_held hfresh 0 localPort).bind fun made => ?_
  cases made with
  | none => exact ensures_pure fun s hs => hs
  | some fd =>
    refine (call_quiet hfresh fun _ => rfl).bind fun listens => ensures_ite (fun _ => ?_) fun _ => ?_
    · exact ensures_pure fun s hs => hs
    · exact close_made hfresh

theorem activeSocket_held (localPort : UInt16) :
    Ensures (Held isOpen slots next []) (activeSocket env localPort)
      fun made => Held isOpen slots next made.toList :=
  ensures_get_bind fun s => (boundSocket_held hfresh s.ifaceIpBe localPort).pre fun _ h => h.2

end Calls

end Tc8Harness.UpperTester
