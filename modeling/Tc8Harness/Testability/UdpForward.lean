import Tc8Harness.Lib.Observe
import Tc8Harness.Testability.SocketFrame

/-!
# A forwarded datagram socket

RECEIVE_AND_FORWARD of the UDP group. The datagrams that wait on the socket when it is dispatched are
to be dropped, and those that come later to be forwarded as Events, one each and in order, up to the
byte bound. `UdpSocket` is the server together with the receive queue of the socket: datagrams arrive
at its end, and the drain and the forward take them off its head.

The drain stops at the first `recv` that is not positive, and a `recv` of an empty datagram is 0: what
waits behind an empty datagram stays and is forwarded (`forwards_later_iff`).
-/

namespace Tc8Harness.Testability

open BigEndian Wire Someip Observe

/-! ## The socket and its queue -/

/-- A UDP datagram: its length field bounds the payload. -/
structure Datagram where
  payload : List UInt8
  src : Endpoint := {}
  short : payload.length ≤ 65535

/-- The server and the datagrams that wait on the socket `id`. -/
structure UdpSocket where
  server : ProtocolServer
  id : UInt16
  queue : List Datagram

inductive Happening where
  | arrives (d : Datagram)
  | served (i : Input)

/-- What the drain's `recv` calls return, and the queue they leave: each takes one datagram off, and
the first that is not positive is the last. -/
def drainQueue : List Datagram → List Int × List Datagram
  | [] => ([-1], [])
  | d :: queue =>
    if d.payload.length = 0 then ([0], queue)
    else ((d.payload.length : Int) :: (drainQueue queue).1, (drainQueue queue).2)

namespace UdpSocket

variable (v : UdpSocket)

/-- The step dispatches RECEIVE_AND_FORWARD for the socket and drains it. -/
def drains (i : Input) : Bool :=
  match v.server.request i with
  | none => false
  | some req =>
    match req.primitive with
    | .receiveAndForward _ =>
      (parseReceiveAndForward req.dat).any (fun r => r.socketId == v.id) &&
        (v.server.sockets.contains v.id && !v.server.pendingConnects.contains v.id)
    | _ => false

/-- The forward, when it runs, reads: it has a record and the bound is not reached. -/
def reads : Bool :=
  match v.server.eventWatches[v.id]? with
  | none => false
  | some w => w.kind == .kRecvUdp && (w.limitless || w.consumed < w.maxLen.toUInt32)

/-- The answers to the server are the queue's where it reads the socket. -/
def step : Happening → UdpSocket
  | .arrives d => { v with queue := v.queue ++ [d] }
  | .served i =>
    if v.drains i then
      { v with
        server := v.server.step { i with answers := { i.answers with recv := (drainQueue v.queue).1 } }
        queue := (drainQueue v.queue).2 }
    else if v.server.fires i.trigger = some (.onWorkerReadable v.id) then
      { v with
        server := v.server.step
          { i with
            answers := { i.answers with recvFromV4 := v.queue.head?.map fun d => (d.payload, d.src) } }
        queue := if v.reads then v.queue.tail else v.queue }
    else { v with server := v.server.step i }

def run (hs : List Happening) : UdpSocket := hs.foldl step v

/-- No request closes the socket or arms another worker on it. -/
def leaves : Happening → Prop
  | .arrives _ => True
  | .served i => ∀ req, v.server.request i = some req → req.takes i.answers v.id = false

end UdpSocket

def Happening.arrival : Happening → Option Datagram
  | .arrives d => some d
  | .served _ => none

/-! ## What is to be forwarded -/

/-- The forward is not at its bound after `n` bytes. -/
def EventWatch.room (w : EventWatch) (n : Nat) : Bool := w.limitless || n < w.maxLen.toNat

/-- The datagrams that are forwarded before the bound is reached, `n` bytes having been. -/
def EventWatch.within (w : EventWatch) : Nat → List Datagram → List Datagram
  | _, [] => []
  | n, d :: ds => if w.room n then d :: w.within (n + d.payload.length) ds else []

/-- The Event of one datagram: its full length, its source and what the buffer and maxFwd leave of
the payload. -/
def datagramEvent (id : UInt16) (w : EventWatch) (d : Datagram) : Action :=
  .event id
    { serviceId := w.serviceId, methodId := methodId kGidUdp kPidReceiveAndForward true
      tid := kTidEvent, rid := kRidEOk }
    (appendVint8
      (appendIpv4Addr (appendU16 (appendU16 [] (UInt16.ofNat d.payload.length)) d.src.port) d.src.addrBe)
      (d.payload.take (min 2048 w.maxFwd.toNat)))
    w.peer

/-- The bytes of the datagrams. -/
def bytesOf (ds : List Datagram) : Nat := (ds.map fun d => d.payload.length).sum

/-- **What the forward owes.** At any point the Events of the socket are those of the datagrams that
came since, as many as were served and no others, and below the bound the loop watches the socket; and
when the watch is served, at most as often as datagrams wait, all that the bound admits are forwarded. -/
structure ForwardsLater (w : EventWatch) (v : UdpSocket) (watch : Nat) (future : List Happening) :
    Prop where
  safe : ∃ done, done <+: w.within 0 (future.filterMap Happening.arrival) ∧
    (v.run future).server.eventsOf v.id = v.server.eventsOf v.id ++ done.map (datagramEvent v.id w) ∧
    (w.room (bytesOf done) = true → (v.run future).server.reactor.watches[watch]? =
      some ⟨w.fd, .onWorkerReadable v.id, false⟩)
  live : ∃ n ≤ (v.run future).queue.length,
    ((v.run future).run (.replicate n (.served ⟨.watch watch, {}⟩))).server.eventsOf v.id =
      v.server.eventsOf v.id ++
        (w.within 0 (future.filterMap Happening.arrival)).map (datagramEvent v.id w)

theorem bytesOf_concat (ds : List Datagram) (d : Datagram) :
    bytesOf (ds ++ [d]) = bytesOf ds + d.payload.length := by
  simp [bytesOf]

/-- What the bound admits of a longer list. -/
theorem EventWatch.within_append (w : EventWatch) (n : Nat) (ds es : List Datagram)
    (hall : w.within n ds = ds) :
    w.within n (ds ++ es) = ds ++ w.within (n + bytesOf ds) es := by
  induction ds generalizing n with
  | nil => simp [bytesOf]
  | cons d ds ih =>
    simp only [EventWatch.within, List.cons_append] at hall ⊢
    split at hall
    · next hroom =>
      rw [if_pos hroom, ih _ (List.cons.inj hall).2]
      simp [bytesOf, Nat.add_assoc]
    · nomatch hall

theorem EventWatch.within_full {w : EventWatch} {n : Nat} (h : w.room n = false)
    (ds : List Datagram) : w.within n ds = [] := by
  cases ds with
  | nil => rfl
  | cons d ds => rw [EventWatch.within, h]; rfl

/-! ## The forward -/

theorem EventWatch.room_iff {w : EventWatch} {n : UInt32} {k : Nat}
    (h : w.limitless = false → n.toNat = k) :
    w.room k = (w.limitless || n < w.maxLen.toUInt32) := by
  unfold EventWatch.room
  cases hl : w.limitless with
  | true => rfl
  | false =>
    rw [Bool.false_or, Bool.false_or, ← h hl]
    refine decide_eq_decide.mpr ?_
    rw [UInt32.lt_iff_toNat_lt, UInt16.toNat_toUInt32]

/-- The count of a bounded forward does not wrap: it is below the bound before the datagram. -/
theorem EventWatch.consumed_add {w : EventWatch} {n : UInt32} {k : Nat}
    (h : w.limitless = false → n.toNat = k) (hroom : w.room k = true) (d : Datagram) :
    w.limitless = false → (n + UInt32.ofNat d.payload.length).toNat = k + d.payload.length := by
  intro hl
  have hshort := d.short
  have hmax := w.maxLen.toNat_lt
  have hk : k < w.maxLen.toNat := by simpa [EventWatch.room, hl] using hroom
  rw [UInt32.toNat_add, UInt32.toNat_ofNat', h hl]
  omega

namespace ProtocolServer

variable {s : ProtocolServer} {a : Answers}

theorem eventsOf_datagramEvent (id : UInt16) (w : EventWatch) (d : Datagram) :
    (s.act (datagramEvent id w d)).eventsOf id = s.eventsOf id ++ [datagramEvent id w d] := by
  simp [eventsOf, ProtocolServer.act, datagramEvent, Action.isEventOf]

/-- At the bound the worker goes. -/
theorem onWorkerReadable_full {w : EventWatch} {id : UInt16} (hw : s.eventWatches[id]? = some w)
    (hkind : w.kind = .kRecvUdp) (h : (w.limitless || w.consumed < w.maxLen.toUInt32) = false) :
    s.onWorkerReadable a id =
      { s with
        reactor := s.reactor.removeWatch w.id, eventWatches := s.eventWatches.erase id } := by
  have hfull : w.limitless = false ∧ w.consumed ≥ w.maxLen.toUInt32 := by simpa using h
  have hserve : s.serveOne a w id = (s, w, false) := by
    rw [serveOne, hkind]
    exact if_pos hfull
  simp only [onWorkerReadable, hw, hserve, Bool.false_eq_true, if_false]

theorem not_full {w : EventWatch} (h : (w.limitless || w.consumed < w.maxLen.toUInt32) = true) :
    ¬ (w.limitless = false ∧ w.consumed ≥ w.maxLen.toUInt32) := by
  rintro ⟨hl, hge⟩
  simp [hl, UInt32.not_lt.mpr hge] at h

theorem onWorkerReadable_idle {w : EventWatch} {id : UInt16} (hw : s.eventWatches[id]? = some w)
    (hkind : w.kind = .kRecvUdp) (h : (w.limitless || w.consumed < w.maxLen.toUInt32) = true)
    (hnone : a.recvFromV4 = none) :
    s.onWorkerReadable a id =
      { s.act (.recvFromV4 w.fd) with eventWatches := s.eventWatches.insert id w } := by
  have hserve : s.serveOne a w id = (s.act (.recvFromV4 w.fd), w, true) := by
    rw [serveOne, hkind]
    simp only [recvForwardUdpOne, if_neg (not_full h), hnone]
  simp only [onWorkerReadable, hw, hserve, if_true]
  rfl

/-- What the buffer and maxFwd leave of a datagram. -/
theorem take_forwarded (d : Datagram) (maxFwd : UInt16) :
    (d.payload.take 2048).take (UInt16.ofNat (min (d.payload.take 2048).length maxFwd.toNat)).toNat =
      d.payload.take (min 2048 maxFwd.toNat) := by
  have hfwd : (UInt16.ofNat (min (d.payload.take 2048).length maxFwd.toNat)).toNat =
      min (d.payload.take 2048).length maxFwd.toNat := by
    rw [UInt16.toNat_ofNat']
    refine Nat.mod_eq_of_lt ?_
    rw [List.length_take]
    omega
  rw [hfwd, List.take_take, List.length_take]
  refine List.take_eq_take_iff.mpr ?_
  omega

/-- A datagram that is read goes out as an Event. -/
theorem onWorkerReadable_datagram {w : EventWatch} {id : UInt16} (hw : s.eventWatches[id]? = some w)
    (hkind : w.kind = .kRecvUdp) (h : (w.limitless || w.consumed < w.maxLen.toUInt32) = true)
    {d : Datagram} (hd : a.recvFromV4 = some (d.payload, d.src)) :
    s.onWorkerReadable a id =
      if w.limitless || w.consumed + UInt32.ofNat d.payload.length < w.maxLen.toUInt32 then
        { (s.act (.recvFromV4 w.fd)).act (datagramEvent id w d) with
          eventWatches := s.eventWatches.insert id
            { w with consumed := w.consumed + UInt32.ofNat d.payload.length } }
      else
        { (s.act (.recvFromV4 w.fd)).act (datagramEvent id w d) with
          reactor := s.reactor.removeWatch w.id, eventWatches := s.eventWatches.erase id } := by
  have hfull : min d.payload.length 0xFFFF = d.payload.length := Nat.min_eq_left d.short
  have hserve : s.serveOne a w id =
      ((s.act (.recvFromV4 w.fd)).act (datagramEvent id w d),
        { w with consumed := w.consumed + UInt32.ofNat d.payload.length },
        w.limitless || w.consumed + UInt32.ofNat d.payload.length < w.maxLen.toUInt32) := by
    have hone : s.serveOne a w id = s.recvForwardUdpOne a w id := by rw [serveOne, hkind]
    rw [hone]
    simp only [recvForwardUdpOne, if_neg (not_full h), hd, hfull, take_forwarded]
    rfl
  simp only [onWorkerReadable, hw, hserve]
  rfl

end ProtocolServer

namespace UdpSocket

open ProtocolServer

variable {w : EventWatch} {watch : Nat} {sent : List Action} {arrived done : List Datagram}
  {v : UdpSocket} {i : Input}

/-- The forward `w` under way: of the datagrams that arrived since it was armed, `done` are forwarded.
What waits is what is left of them, unless the bound is reached; then the record goes when the watch is
served next. -/
structure Forwarding (w : EventWatch) (watch : Nat) (sent : List Action)
    (arrived done : List Datagram) (v : UdpSocket) : Prop where
  rest : ∃ rest, arrived = done ++ rest ∧ (w.room (bytesOf done) = true → v.queue = rest)
  admitted : w.within 0 done = done
  pending : v.server.pendingConnects[v.id]? = none
  events : v.server.eventsOf v.id = sent ++ done.map (datagramEvent v.id w)
  record : (v.server.eventWatches[v.id]? = none ∧ w.room (bytesOf done) = false) ∨
    ∃ n : UInt32, v.server.eventWatches[v.id]? = some { w with id := watch, consumed := n } ∧
      (w.limitless = false → n.toNat = bytesOf done) ∧
      Handles (some ⟨v.id, watch, ⟨w.fd, .onWorkerReadable v.id, false⟩⟩) v.server

/-- The bound admits the datagrams that are forwarded and what it has room for of the others. -/
theorem Forwarding.within_arrived (h : Forwarding w watch sent arrived done v) :
    ∃ rest, w.within 0 arrived = done ++ w.within (bytesOf done) rest ∧
      (w.room (bytesOf done) = true → v.queue = rest) := by
  obtain ⟨rest, rfl, hqueue⟩ := h.rest
  exact ⟨rest, by rw [w.within_append 0 done rest h.admitted, Nat.zero_add], hqueue⟩

theorem Forwarding.forwarded_prefix (h : Forwarding w watch sent arrived done v) :
    done <+: w.within 0 arrived := by
  obtain ⟨rest, hwithin, -⟩ := h.within_arrived
  rw [hwithin]
  exact List.prefix_append _ _

theorem Forwarding.watched (h : Forwarding w watch sent arrived done v)
    (hroom : w.room (bytesOf done) = true) :
    v.server.reactor.watches[watch]? = some ⟨w.fd, .onWorkerReadable v.id, false⟩ := by
  rcases h.record with ⟨-, hfull⟩ | ⟨n, -, -, hhandles⟩
  · rw [hroom] at hfull
    nomatch hfull
  · exact (hhandles.watch _ rfl).1

theorem Forwarding.arrives (h : Forwarding w watch sent arrived done v) (d : Datagram) :
    Forwarding w watch sent (arrived ++ [d]) done (v.step (.arrives d)) := by
  obtain ⟨rest, rfl, hqueue⟩ := h.rest
  refine ⟨⟨rest ++ [d], List.append_assoc _ _ _, fun hroom => ?_⟩, h.admitted, h.pending, h.events,
    h.record⟩
  exact congrArg (· ++ [d]) (hqueue hroom)

/-! ## The worker's steps -/

theorem drains_of_fires (hfires : v.server.fires i.trigger = some (.onWorkerReadable v.id)) :
    v.drains i = false := by
  have hnone : v.server.request i = none := by
    rw [request, if_neg (by rw [hfires]; simp)]
  rw [drains, hnone]

/-- The step that runs the worker: its `recvFromV4` returns the head of the queue. -/
theorem step_worker (hfires : v.server.fires i.trigger = some (.onWorkerReadable v.id)) :
    ∃ i' : Input, i'.answers.recvFromV4 = v.queue.head?.map (fun d => (d.payload, d.src)) ∧
      v.step (.served i) =
        { v with
          server := (v.server.entered i').onWorkerReadable i'.answers v.id
          queue := if v.reads then v.queue.tail else v.queue } := by
  refine ⟨{ i with answers := { i.answers with
    recvFromV4 := v.queue.head?.map fun d => (d.payload, d.src) } }, rfl, ?_⟩
  rw [step, drains_of_fires hfires]
  simp only [Bool.false_eq_true, if_false, ProtocolServer.step, hfires]
  rfl

/-- What the worker of the forward does. -/
inductive Served (w : EventWatch) (watch : Nat) (sent : List Action) (arrived done : List Datagram)
    (v v' : UdpSocket) : Prop
  | full (hroom : w.room (bytesOf done) = false) (h : Forwarding w watch sent arrived done v')
  | idle (hqueue : v.queue = []) (h : Forwarding w watch sent arrived done v')
  | forwarded (d : Datagram) (hroom : w.room (bytesOf done) = true) (hqueue : v.queue = d :: v'.queue)
      (h : Forwarding w watch sent arrived (done ++ [d]) v')

theorem Forwarding.serve_watch (h : Forwarding w watch sent arrived done v) (hkind : w.kind = .kRecvUdp)
    (hfires : v.server.fires i.trigger = some (.onWorkerReadable v.id)) :
    Served w watch sent arrived done v (v.step (.served i)) := by
  obtain ⟨i', hrecv, hstep⟩ := step_worker hfires
  have hbeside := entered_beside (s := v.server) v.id i'
  have hpending := hbeside.pending h.pending
  have hevents := hbeside.events.trans h.events
  obtain ⟨rest, harrived, hqueue⟩ := h.rest
  rw [hstep]
  rcases h.record with ⟨hgone, hfull⟩ | ⟨n, hrecord, hcount, hhandles⟩
  · have hidle : (v.server.entered i').onWorkerReadable i'.answers v.id = v.server.entered i' := by
      rw [onWorkerReadable, hbeside.record, hgone]
    rw [hidle]
    exact .full hfull ⟨⟨rest, harrived, by simp [hfull]⟩, h.admitted, hpending, hevents,
      .inl ⟨hbeside.record.trans hgone, hfull⟩⟩
  have hreads : v.reads = w.room (bytesOf done) := by
    rw [reads, hrecord, EventWatch.room_iff hcount]
    simp [hkind]
  have hroom := EventWatch.room_iff hcount
  have hhandles' := hhandles.entered i'
  have hrecord' := hbeside.record.trans hrecord
  generalize v.server.entered i' = s at *
  have hread := ((Beside.refl v.id s).act (.recvFromV4 w.fd) rfl).events.trans hevents
  rw [hreads]
  cases hbound : w.room (bytesOf done) with
  | false =>
    rw [onWorkerReadable_full hrecord' hkind (hroom.symm.trans hbound)]
    exact .full hbound ⟨⟨rest, harrived, by simp [hbound]⟩, h.admitted, hpending, hevents,
      .inl ⟨(TreeTable.getElem?_erase _ _).trans (if_pos rfl), hbound⟩⟩
  | true =>
    rw [if_pos rfl]
    cases hq : v.queue with
    | nil =>
      rw [hq] at hrecv
      rw [onWorkerReadable_idle hrecord' hkind (hroom.symm.trans hbound) hrecv]
      exact .idle hq ⟨⟨rest, harrived, fun _ => hq.symm.trans (hqueue hbound)⟩, h.admitted, hpending,
        hread, .inr ⟨n, (TreeTable.getElem?_insert _ _ _).trans (if_pos rfl), hcount,
          (hhandles'.act _).replaceWorker hrecord' rfl⟩⟩
    | cons d q =>
      rw [hq] at hrecv
      have hcount' := EventWatch.consumed_add hcount hbound d
      rw [← bytesOf_concat] at hcount'
      have hroom' := EventWatch.room_iff hcount'
      have hadmitted : w.within 0 (done ++ [d]) = done ++ [d] := by
        rw [w.within_append 0 done [d] h.admitted, Nat.zero_add, EventWatch.within, hbound]
        rfl
      have harrived' : arrived = (done ++ [d]) ++ q := by
        rw [harrived, ← hqueue hbound, hq, List.append_assoc]
        rfl
      have hlogged : ((s.act (.recvFromV4 w.fd)).act (datagramEvent v.id w d)).eventsOf v.id =
          sent ++ (done ++ [d]).map (datagramEvent v.id w) := by
        rw [eventsOf_datagramEvent, hread, List.map_append, List.append_assoc]
        rfl
      rw [onWorkerReadable_datagram hrecord' hkind (hroom.symm.trans hbound) hrecv]
      -- the datagram may be the one that reaches the bound
      refine .forwarded d hbound hq ⟨⟨q, harrived', fun _ => rfl⟩, hadmitted, ?_, ?_, ?_⟩
      · split <;> exact hpending
      · split <;> exact hlogged
      · split
        · exact .inr ⟨_, (TreeTable.getElem?_insert _ _ _).trans (if_pos rfl), hcount',
            ((hhandles'.act _).act _).replaceWorker hrecord' rfl⟩
        · next hstop =>
          refine .inl ⟨(TreeTable.getElem?_erase _ _).trans (if_pos rfl), ?_⟩
          rw [hroom']
          simpa using hstop

/-! ## Runs -/

theorem drains_of_leaves (h : v.leaves (.served i)) : v.drains i = false := by
  unfold drains
  split
  · rfl
  next req hreq =>
  have hok := h req hreq
  unfold Request.takes at hok
  split
  · next udp hprim =>
    simp only [hprim] at hok
    rw [hok]
    rfl
  · rfl

/-- A step of the system keeps the forward under way, for what has arrived by then. -/
theorem Forwarding.step (h : Forwarding w watch sent arrived done v) (hkind : w.kind = .kRecvUdp)
    (hap : Happening) (hok : v.leaves hap) :
    ∃ done', Forwarding w watch sent (arrived ++ hap.arrival.toList) done' (v.step hap) := by
  cases hap with
  | arrives d => exact ⟨done, h.arrives d⟩
  | served i =>
    simp only [Happening.arrival, Option.toList_none, List.append_nil]
    by_cases hfires : v.server.fires i.trigger = some (.onWorkerReadable v.id)
    · cases h.serve_watch hkind hfires with
      | full _ h' => exact ⟨done, h'⟩
      | idle _ h' => exact ⟨done, h'⟩
      | forwarded d _ _ h' => exact ⟨done ++ [d], h'⟩
    · have hstep : v.step (.served i) = { v with server := v.server.step i } := by
        rw [UdpSocket.step, drains_of_leaves hok]
        simp only [Bool.false_eq_true, if_false, if_neg hfires]
      have hapart : Apart v.id v.server i := ⟨hok, hfires⟩
      have hbeside := step_beside h.pending hapart
      rw [hstep]
      refine ⟨done, h.rest, h.admitted, hbeside.pending h.pending, hbeside.events.trans h.events, ?_⟩
      refine h.record.imp (And.imp_left hbeside.record.trans) ?_
      rintro ⟨n, hrecord, hcount, hhandles⟩
      refine ⟨n, hbeside.record.trans hrecord, hcount, step_handles hhandles ?_⟩
      rintro o ⟨⟩
      exact hapart

theorem step_id (v : UdpSocket) (hap : Happening) : (v.step hap).id = v.id := by
  cases hap with
  | arrives d => rfl
  | served i =>
    unfold UdpSocket.step
    dsimp only
    split
    · rfl
    · split <;> rfl

theorem Forwarding.run (h : Forwarding w watch sent arrived done v) (hkind : w.kind = .kRecvUdp)
    (future : List Happening) (hok : Along UdpSocket.step leaves v future) :
    ∃ done', Forwarding w watch sent (arrived ++ future.filterMap Happening.arrival) done'
      (v.run future) := by
  induction future generalizing v arrived done with
  | nil => exact ⟨done, (List.append_nil arrived).symm ▸ h⟩
  | cons hap future ih =>
    obtain ⟨done', h'⟩ := h.step hkind hap hok.head
    obtain ⟨done'', h''⟩ := ih h' hok.tail
    refine ⟨done'', ?_⟩
    have hlist : (hap :: future).filterMap Happening.arrival =
        hap.arrival.toList ++ future.filterMap Happening.arrival := by
      cases hap <;> rfl
    rw [hlist, ← List.append_assoc]
    exact h''

/-- Serving the watch works the queue off: each turn forwards its head. -/
theorem Forwarding.drained (h : Forwarding w watch sent arrived done v) (hkind : w.kind = .kRecvUdp) :
    ∃ n ≤ v.queue.length,
      (v.run (.replicate n (.served ⟨.watch watch, {}⟩))).server.eventsOf v.id =
        sent ++ (w.within 0 arrived).map (datagramEvent v.id w) := by
  generalize hlen : v.queue.length = len
  induction len generalizing v done with
  | zero =>
    refine ⟨0, le_rfl, h.events.trans ?_⟩
    obtain ⟨rest, hwithin, hqueue⟩ := h.within_arrived
    rw [hwithin]
    cases hroom : w.room (bytesOf done) with
    | false => rw [EventWatch.within_full hroom, List.append_nil]
    | true =>
      rw [← hqueue hroom, List.eq_nil_of_length_eq_zero hlen]
      simp [EventWatch.within]
  | succ len ih =>
    cases hroom : w.room (bytesOf done) with
    | false =>
      refine ⟨0, Nat.zero_le _, h.events.trans ?_⟩
      obtain ⟨rest, hwithin, -⟩ := h.within_arrived
      rw [hwithin, EventWatch.within_full hroom, List.append_nil]
    | true =>
      have hfires : v.server.fires (.watch watch) = some (.onWorkerReadable v.id) := by
        rw [fires, h.watched hroom]
        rfl
      cases h.serve_watch (i := ⟨.watch watch, {}⟩) hkind hfires with
      | full hfull => rw [hroom] at hfull; cases hfull
      | idle hqueue => rw [hqueue] at hlen; cases hlen
      | forwarded d _ hqueue h' =>
        rw [hqueue, List.length_cons] at hlen
        obtain ⟨n, hn, hevents⟩ := ih h' (Nat.succ.inj hlen)
        rw [step_id] at hevents
        exact ⟨n + 1, Nat.succ_le_succ hn, hevents⟩

end UdpSocket

/-! ## The dispatch -/

/-- The drain leaves nothing exactly when no datagram waits behind an empty one. -/
theorem drainQueue_eq_nil (queue : List Datagram) :
    (drainQueue queue).2 = [] ↔ ∀ d ∈ queue.dropLast, d.payload ≠ [] := by
  induction queue with
  | nil => simp [drainQueue]
  | cons d queue ih =>
    unfold drainQueue
    by_cases hempty : d.payload = []
    · rw [if_pos (by rw [hempty]; rfl)]
      cases queue with
      | nil => simp
      | cons e queue => simp [hempty]
    · rw [if_neg (by simpa using hempty)]
      simp only [ih]
      cases queue with
      | nil => simp
      | cons e queue => simp [hempty]

namespace UdpSocket

open ProtocolServer

variable {v : UdpSocket} {i : Input} {req : Request} {r : ForwardReq} {fd : Int}

/-- On a live socket with no connect pending the handler drains and arms. -/
theorem receiveAndForward_arms {s : ProtocolServer} (a : Answers) {dat : List UInt8}
    (hparse : parseReceiveAndForward dat = some r) (hlive : s.sockets[r.socketId]? = some fd)
    (hpending : s.pendingConnects[r.socketId]? = none) (hhandles : Handles none s)
    (serviceId : UInt16) (peer : Endpoint) (udp : Bool) :
    ∃ t : ProtocolServer, Handles none t ∧ t.pendingConnects[r.socketId]? = none ∧
      (s.receiveAndForward a dat serviceId peer udp).1 =
        t.armEventWatch r.socketId (makeWatch r fd serviceId peer udp) := by
  have hdrained := Handles.act (Handles.logged (hhandles.act (.setNonBlocking fd true))
    ((s.act (.setNonBlocking fd true)).log ++
      List.replicate ((drained a).length + 1) (Action.recv fd))) (.setNonBlocking fd false)
  have hstopped := hdrained.stopWorker (show ∀ o ∈ (none : Option Owner), r.socketId ≠ o.id by simp)
  refine ⟨_, hstopped.act (.setNonBlocking fd true), ?_, ?_⟩
  · unfold ProtocolServer.stopWorker
    split <;> exact hpending
  · simp only [receiveAndForward, hparse, lookupSocket, hlive, hpending]

/-- The request arms the forward: of what waits then, it will forward what the drain left. -/
theorem dispatched (hhandles : Handles none v.server) (hreq : v.server.request i = some req)
    (hprim : req.primitive = .receiveAndForward true)
    (hparse : parseReceiveAndForward req.dat = some r) (hid : r.socketId = v.id)
    (hlive : v.server.sockets[v.id]? = some fd) (hpending : v.server.pendingConnects[v.id]? = none) :
    ∃ watch, Forwarding (makeWatch r fd req.header.serviceId req.peer true) watch
      ((v.step (.served i)).server.eventsOf v.id) (drainQueue v.queue).2 [] (v.step (.served i)) := by
  have hdrains : v.drains i = true := by
    rw [drains, hreq]
    simp only [hprim, hparse]
    simp [hid, ← Std.TreeMap.isSome_getElem?_eq_contains, hlive, hpending]
  generalize hi' : ({ i with answers := { i.answers with recv := (drainQueue v.queue).1 } } : Input) = i'
  have hreq' : v.server.request i' = some req := by
    rw [← hi']
    exact hreq
  have hstep : v.step (.served i) =
      { v with server := v.server.step i', queue := (drainQueue v.queue).2 } := by
    rw [← hi', UdpSocket.step, if_pos hdrains]
  have hentered : (v.server.entered i').sockets = v.server.sockets ∧
      (v.server.entered i').pendingConnects = v.server.pendingConnects := by
    unfold ProtocolServer.entered
    cases i'.trigger <;> exact ⟨rfl, rfl⟩
  have hbefore := (hhandles.entered i').act (.recvFromV4 v.server.fd)
  have hlive' : ((v.server.entered i').act (.recvFromV4 v.server.fd)).sockets[r.socketId]? = some fd := by
    rw [hid]
    exact (congrArg (·[v.id]?) hentered.1).trans hlive
  have hpending' :
      ((v.server.entered i').act (.recvFromV4 v.server.fd)).pendingConnects[r.socketId]? = none := by
    rw [hid]
    exact (congrArg (·[v.id]?) hentered.2).trans hpending
  obtain ⟨t, ht, htpending, harms⟩ := receiveAndForward_arms i'.answers hparse hlive' hpending' hbefore
    req.header.serviceId req.peer true
  obtain ⟨response, hserver⟩ : ∃ response, v.server.step i' =
      (t.armEventWatch v.id (makeWatch r fd req.header.serviceId req.peer true)).act response := by
    rw [step_of_request hreq', serve]
    rcases dispatch_spec ((v.server.entered i').act (.recvFromV4 v.server.fd)) i'.answers req with
      ⟨hother, -⟩ | ⟨-, hdone⟩
    · rw [hprim] at hother
      cases hother
    · rw [hdone, hprim]
      simp only [perform, harms, hid]
      exact ⟨_, rfl⟩
  rw [hid] at htpending
  have hfd : 0 ≤ fd := hhandles.sockets hlive
  refine ⟨t.reactor.nextWatchId, ⟨_, rfl, ?_⟩, rfl, ?_, ?_, .inr ⟨0, ?_, fun _ => rfl, ?_⟩⟩
  all_goals rw [hstep]
  · exact fun _ => rfl
  · rw [hserver]
    exact htpending
  · exact (List.append_nil _).symm
  · rw [hserver]
    have hdrawn : (t.reactor.addWatch fd (.onWorkerReadable v.id)).2 = t.reactor.nextWatchId := by
      rw [Reactor.addWatch, Reactor.addWatchFor, if_neg (not_lt.mpr hfd)]
    refine (TreeTable.getElem?_insert _ _ _).trans ((if_pos rfl).trans ?_)
    exact congrArg (fun n => some { makeWatch r fd req.header.serviceId req.peer true with id := n }) hdrawn
  · rw [hserver]
    exact (ht.armed v.id hfd).act response

theorem room_zero (r : ForwardReq) (fd : Int) (serviceId : UInt16) (peer : Endpoint) (udp : Bool) :
    (makeWatch r fd serviceId peer udp).room 0 = false ↔ r.maxLen = 0 := by
  have hroom : (makeWatch r fd serviceId peer udp).room 0 =
      (decide (r.maxLen = 0xFFFF) || decide (0 < r.maxLen.toNat)) := rfl
  rw [hroom, Bool.or_eq_false_iff, decide_eq_false_iff_not, decide_eq_false_iff_not, not_lt,
    Nat.le_zero]
  constructor
  · rintro ⟨-, hzero⟩
    exact UInt16.toNat_inj.mp hzero
  · intro hzero
    rw [hzero]
    decide

theorem run_id (v : UdpSocket) (future : List Happening) : (v.run future).id = v.id := by
  induction future generalizing v with
  | nil => rfl
  | cons hap future ih => exact (ih (v.step hap)).trans (step_id v hap)

/-- **Only what comes later is forwarded, exactly when no datagram waits behind an empty one.** For
every state of the server, every queue on a live datagram socket with no connect pending and every
RECEIVE_AND_FORWARD for it: whatever arrives and whatever else is served, until the socket is closed or
armed anew, the forward forwards what arrives, in order and up to the bound, and nothing that waited
before, if and only if the bound is 0 or no datagram but the last that waited is empty. -/
theorem forwards_later_iff (c : Int) (before : List Input) {i : Input} {req : Request} {r : ForwardReq}
    {fd : Int} (queue : List Datagram) (hreq : ((start c).run before).request i = some req)
    (hprim : req.primitive = .receiveAndForward true)
    (hparse : parseReceiveAndForward req.dat = some r)
    (hlive : ((start c).run before).sockets[r.socketId]? = some fd)
    (hpending : ((start c).run before).pendingConnects[r.socketId]? = none) :
    (∃ watch, ∀ future,
      Along UdpSocket.step leaves
        ((⟨(start c).run before, r.socketId, queue⟩ : UdpSocket).step (.served i)) future →
      ForwardsLater (makeWatch r fd req.header.serviceId req.peer true)
        ((⟨(start c).run before, r.socketId, queue⟩ : UdpSocket).step (.served i)) watch future) ↔
      r.maxLen = 0 ∨ ∀ d ∈ queue.dropLast, d.payload ≠ [] := by
  have hkind : (makeWatch r fd req.header.serviceId req.peer true).kind = .kRecvUdp := rfl
  have hroom := room_zero r fd req.header.serviceId req.peer true
  obtain ⟨watch, hforward⟩ := dispatched (v := ⟨(start c).run before, r.socketId, queue⟩)
    (run_handles c before) hreq hprim hparse rfl hlive hpending
  have hid := step_id ⟨(start c).run before, r.socketId, queue⟩ (.served i)
  generalize UdpSocket.step ⟨(start c).run before, r.socketId, queue⟩ (.served i) = v at *
  generalize makeWatch r fd req.header.serviceId req.peer true = w at *
  simp only at hforward hid
  rw [← hid] at hforward
  rw [← drainQueue_eq_nil, ← hroom]
  constructor
  · rintro ⟨watch', hall⟩
    by_contra hstale
    rw [not_or, Bool.not_eq_false] at hstale
    have hopen : w.room (bytesOf []) = true := hstale.1
    -- the watch is served once, and nothing has arrived
    have hfires : v.server.fires (.watch watch) = some (.onWorkerReadable v.id) := by
      rw [fires, hforward.watched hopen]
      rfl
    have hleaves : v.leaves (.served ⟨.watch watch, {}⟩) := by
      intro req' hreq'
      rw [request, if_neg (by rw [hfires]; simp)] at hreq'
      cases hreq'
    obtain ⟨done, hprefix, hevents, -⟩ :=
      (hall [.served ⟨.watch watch, {}⟩] (.cons hleaves along_nil)).safe
    rw [List.prefix_nil.mp hprefix] at hevents
    cases hforward.serve_watch (i := ⟨.watch watch, {}⟩) hkind hfires with
    | full hfull =>
      rw [hopen] at hfull
      cases hfull
    | idle hqueue =>
      obtain ⟨rest, hrest, hwaits⟩ := hforward.rest
      exact hstale.2 (hrest.trans ((hwaits hopen).symm.trans hqueue))
    | forwarded d _ _ hdone =>
      have hgrown := hdone.events
      rw [step_id] at hgrown
      have hlen := congrArg List.length (hgrown.symm.trans hevents)
      simp at hlen
  · intro hok
    have hempty : Forwarding w watch (v.server.eventsOf v.id) [] [] v := by
      refine ⟨⟨[], rfl, fun hopen => ?_⟩, rfl, hforward.pending, hforward.events, hforward.record⟩
      obtain ⟨rest, hrest, hwaits⟩ := hforward.rest
      rcases hok with hfull | hdrained
      · exact absurd (hopen.symm.trans hfull) (by simp)
      · exact (hwaits hopen).trans (hrest.symm.trans hdrained)
    refine ⟨watch, fun future hfuture => ?_⟩
    obtain ⟨done, hdone⟩ := hempty.run hkind future hfuture
    rw [List.nil_append] at hdone
    have hevents := hdone.events
    have hwatched := hdone.watched
    obtain ⟨n, hn, hlive⟩ := hdone.drained hkind
    rw [run_id] at hevents hwatched hlive
    exact ⟨⟨done, hdone.forwarded_prefix, hevents, hwatched⟩, n, hn, hlive⟩

/-- A datagram socket, the first to be registered. -/
def createUdpInput : Input :=
  requestInput kGidUdp kPidCreateAndBind (appendVint8 (appendU16 [0] 5000) []) { create := 10 }

/-- RECEIVE_AND_FORWARD for it, up to 100 bytes. -/
def forwardUdpDat : List UInt8 := appendU16 (appendU16 (appendU16 [] 1) 2048) 100

def forwardUdpInput : Input := requestInput kGidUdp kPidReceiveAndForward forwardUdpDat {}

def forwardUdpRequest : Request := requestMade kGidUdp kPidReceiveAndForward forwardUdpDat

/-- What the request arms. -/
def udpWatch : EventWatch :=
  makeWatch ⟨1, 2048, 100⟩ 10 forwardUdpRequest.header.serviceId forwardUdpRequest.peer true

/-- An empty datagram that waits last does no harm. -/
theorem forwards_later_iff_empty_last :
    ((start 3).run [createUdpInput]).sockets[(1 : UInt16)]? = some 10 ∧
    ∃ watch, ∀ future,
      Along UdpSocket.step leaves
        ((⟨(start 3).run [createUdpInput], 1, [⟨[1, 2], {}, by decide⟩, ⟨[], {}, by decide⟩]⟩ :
          UdpSocket).step (.served forwardUdpInput)) future →
      ForwardsLater udpWatch
        ((⟨(start 3).run [createUdpInput], 1, [⟨[1, 2], {}, by decide⟩, ⟨[], {}, by decide⟩]⟩ :
          UdpSocket).step (.served forwardUdpInput)) watch future := by
  have hlive : ((start 3).run [createUdpInput]).sockets[(1 : UInt16)]? = some 10 := by decide +kernel
  have hreq : ((start 3).run [createUdpInput]).request forwardUdpInput = some forwardUdpRequest := by
    decide +kernel
  have hparse : parseReceiveAndForward forwardUdpRequest.dat = some ⟨1, 2048, 100⟩ := by decide
  exact ⟨hlive, (forwards_later_iff 3 [createUdpInput] _ hreq (by decide) hparse hlive
    (by decide +kernel)).mpr (.inr (by simp))⟩

/-- The socket with a datagram behind an empty one, when the forward is armed. -/
def staleSocket : UdpSocket :=
  (⟨(start 3).run [createUdpInput], 1, [⟨[], {}, by decide⟩, ⟨[7], {}, by decide⟩]⟩ : UdpSocket).step
    (.served forwardUdpInput)

/-- **A datagram that waited behind an empty one is forwarded.** It has been there before the request,
and nothing has arrived since. -/
theorem not_forwards_later_stale :
    (staleSocket.run [.served ⟨.watch 2, {}⟩]).server.eventsOf 1 =
      [datagramEvent 1 udpWatch ⟨[7], {}, by decide⟩] ∧
    ¬ ∃ watch, ∀ future, Along UdpSocket.step leaves staleSocket future →
      ForwardsLater udpWatch staleSocket watch future := by
  have hevents : (staleSocket.run [.served ⟨.watch 2, {}⟩]).server.eventsOf 1 =
      [datagramEvent 1 udpWatch ⟨[7], {}, by decide⟩] := by decide +kernel
  refine ⟨hevents, ?_⟩
  rintro ⟨watch, hall⟩
  have hleaves : staleSocket.leaves (.served ⟨.watch 2, {}⟩) := by
    intro req hreq
    have hnone : staleSocket.server.request ⟨.watch 2, {}⟩ = none := by decide +kernel
    rw [hnone] at hreq
    nomatch hreq
  obtain ⟨done, hprefix, hsafe, -⟩ := (hall [.served ⟨.watch 2, {}⟩] (.cons hleaves along_nil)).safe
  have hbefore : staleSocket.server.eventsOf 1 = [] := by decide +kernel
  rw [List.prefix_nil.mp hprefix] at hsafe
  have hcontra : [datagramEvent 1 udpWatch ⟨[7], {}, by decide⟩] = ([] : List Action) :=
    hevents.symm.trans (hsafe.trans (congrArg (· ++ []) hbefore))
  nomatch hcontra

end UdpSocket

end Tc8Harness.Testability
