import Tc8Harness.Lib.Observe
import Tc8Harness.Lib.TreeTable
import Tc8Harness.Testability.Client

/-!
# A forwarded stream

What the peer sends on a socket with a forward armed reaches the tester as Events, one for each receive,
each bounded by what is left of the budget. However the backend cuts the stream, the server's Events are
the chunks it handed over, in order (`Progress.run`), and the tester's loop puts them together again
(`collectForward_chunks`); `forward_reassembles` joins the two.
-/

namespace Tc8Harness.Testability

open BigEndian Wire Someip Observe

/-! ## Forward Events -/

/-- A forward Event of the socket: its header and its parameters. -/
def Action.forwardOf (id : UInt16) : Action → Option (Header × List UInt8)
  | .event socket header dat _ =>
    if socket = id ∧ header.methodId = methodId kGidTcp kPidReceiveAndForward true then
      some (header, dat)
    else none
  | _ => none

/-- The datagram an Event is sent as. -/
def datagramOf (event : Header × List UInt8) : List UInt8 := buildMessage event.1 event.2

/-- The fullLen of a forward Event. -/
def fullLenOf (event : Header × List UInt8) : Nat := (readU16 event.2 0).toNat

/-- The payload of a forward Event. -/
def payloadOf (event : Header × List UInt8) : List UInt8 :=
  match readVint8 event.2 2 with
  | none => []
  | some (body, _) => body

def forwardHeader (w : EventWatch) (rid : UInt8) : Header :=
  { serviceId := w.serviceId, methodId := methodId kGidTcp kPidReceiveAndForward true
    tid := kTidEvent, rid }

/-- The Event of one receive. -/
def chunkEvent (w : EventWatch) (chunk : List UInt8) : Header × List UInt8 :=
  (forwardHeader w kRidEOk, appendVint8 (appendU16 [] (UInt16.ofNat chunk.length)) chunk)

/-- The Event that ends a forward. -/
def endEvent (w : EventWatch) (rid : UInt8) : Header × List UInt8 :=
  (forwardHeader w rid, appendVint8 (appendU16 [] 0) [])

theorem fullLenOf_chunkEvent (w : EventWatch) {chunk : List UInt8} (h : chunk.length ≤ 65535) :
    fullLenOf (chunkEvent w chunk) = chunk.length := by
  have hread : readU16 (chunkEvent w chunk).2 0 = UInt16.ofNat chunk.length :=
    readU16_at (prefix_appendVint8 chunk) rfl
  rw [fullLenOf, hread, UInt16.toNat_ofNat']
  exact Nat.mod_eq_of_lt (by omega)

theorem readVint8_chunkEvent (w : EventWatch) {chunk : List UInt8} (h : chunk.length ≤ 65535) :
    ∃ off, readVint8 (chunkEvent w chunk).2 2 = some (chunk, off) :=
  ⟨_, readVint8_at (List.prefix_refl _) (by simp) h⟩

theorem payloadOf_chunkEvent (w : EventWatch) {chunk : List UInt8} (h : chunk.length ≤ 65535) :
    payloadOf (chunkEvent w chunk) = chunk := by
  obtain ⟨off, hread⟩ := readVint8_chunkEvent w h
  rw [payloadOf, hread]

theorem fullLenOf_endEvent (w : EventWatch) (rid : UInt8) : fullLenOf (endEvent w rid) = 0 := rfl

theorem payloadOf_endEvent (w : EventWatch) (rid : UInt8) : payloadOf (endEvent w rid) = [] := rfl

/-! ## The tester's side -/

/-- A forward Event of the server is one to the tester. -/
theorem recvSpEventWithRid_forward (w : EventWatch) (rid : UInt8) {dat : List UInt8}
    (hfit : dat.length ≤ 65519) :
    recvSpEventWithRid (datagramOf (forwardHeader w rid, dat)) kGidTcp kPidReceiveAndForward =
      some ⟨rid, dat⟩ := by
  have htake : (buildMessage (forwardHeader w rid) dat).take 65535 =
      buildMessage (forwardHeader w rid) dat :=
    List.take_of_length_le (by rw [length_buildMessage, kHeaderSize]; omega)
  simp only [recvSpEventWithRid, datagramOf, htake, parseHeader_buildMessage, drop_buildMessage]
  simp only [forwardHeader, isEvent_methodId, gidOf_methodId, pidOf_methodId]
  rfl

theorem length_chunkEvent (w : EventWatch) (chunk : List UInt8) :
    (chunkEvent w chunk).2.length = 4 + chunk.length := by
  simp [chunkEvent]

/-- Within the budget the loop gathers a chunk and goes on. -/
theorem collectForward_chunk {maxLen : UInt16} (hlimit : maxLen ≠ 0xFFFF) (w : EventWatch)
    {chunk : List UInt8} (hchunk : chunk.length ≤ 2048) (datagrams : List (List UInt8)) (first : Bool)
    {res : TestabilityForwardResult} (hroom : res.payload.length < maxLen.toNat) :
    collectForward maxLen (datagramOf (chunkEvent w chunk) :: datagrams) first res =
      collectForward maxLen datagrams false
        { res with
          fullLen := res.fullLen + UInt16.ofNat chunk.length
          payload := res.payload ++ chunk } := by
  have hlen := length_chunkEvent w chunk
  have hev := recvSpEventWithRid_forward w kRidEOk (show (chunkEvent w chunk).2.length ≤ 65519 by omega)
  have hfull : readU16 (chunkEvent w chunk).2 0 = UInt16.ofNat chunk.length :=
    readU16_at (prefix_appendVint8 chunk) rfl
  obtain ⟨off, hread⟩ := readVint8_chunkEvent w (show chunk.length ≤ 65535 by omega)
  rw [show datagramOf (chunkEvent w chunk) = datagramOf (forwardHeader w kRidEOk, (chunkEvent w chunk).2)
    from rfl, collectForward, hev]
  simp only [if_neg hlimit, decide_eq_true hroom, Bool.true_eq_false, if_false, ne_eq, not_true_eq_false,
    TestabilityForwardResult.gather, hfull, hread]
  rw [if_neg (by omega)]

/-- **The tester puts the chunks together**, whatever follows them once the budget is spent; an Event
that ends the stream adds nothing. -/
theorem collectForward_chunks {maxLen : UInt16} (hlimit : maxLen ≠ 0xFFFF) (w : EventWatch)
    (chunks : List (List UInt8)) (fin : Option UInt8) (first : Bool) (res : TestabilityForwardResult)
    (hne : ∀ c ∈ chunks, c ≠ []) (hsmall : ∀ c ∈ chunks, c.length ≤ 2048)
    (htotal : res.payload.length + chunks.flatten.length ≤ maxLen.toNat)
    (hend : ∀ rid, fin = some rid → rid ≠ kRidEOk) :
    (collectForward maxLen ((chunks.map (chunkEvent w) ++ (fin.map (endEvent w)).toList).map datagramOf)
      first res).payload = res.payload ++ chunks.flatten ∧
    (collectForward maxLen ((chunks.map (chunkEvent w) ++ (fin.map (endEvent w)).toList).map datagramOf)
      first res).fullLen = res.fullLen + UInt16.ofNat chunks.flatten.length := by
  induction chunks generalizing res first with
  | nil =>
    cases fin with
    | none => simp [collectForward]
    | some rid =>
      have hrid := hend rid rfl
      have hev := recvSpEventWithRid_forward w rid (show (endEvent w rid).2.length ≤ 65519 by simp [endEvent])
      simp only [List.map_nil, List.nil_append, Option.map_some, Option.toList_some, List.map_cons,
        List.flatten_nil, List.append_nil, List.length_nil]
      rw [show datagramOf (endEvent w rid) = datagramOf (forwardHeader w rid, (endEvent w rid).2)
        from rfl, collectForward, hev]
      simp only [if_pos hrid, if_neg hlimit]
      split <;> exact ⟨rfl, (UInt16.add_zero _).symm⟩
  | cons chunk chunks ih =>
    have hpos : chunk.length ≠ 0 := by
      intro hzero
      exact hne chunk List.mem_cons_self (List.eq_nil_of_length_eq_zero hzero)
    rw [List.flatten_cons, List.length_append] at htotal
    simp only [List.map_cons, List.cons_append]
    rw [collectForward_chunk hlimit w (hsmall chunk List.mem_cons_self) _ first (by omega)]
    obtain ⟨hpayload, hfull⟩ := ih false
      { res with
        fullLen := res.fullLen + UInt16.ofNat chunk.length, payload := res.payload ++ chunk }
      (fun c hc => hne c (List.mem_cons_of_mem _ hc)) (fun c hc => hsmall c (List.mem_cons_of_mem _ hc))
      (by simp only [List.length_append]; omega)
    constructor
    · rw [hpayload, List.flatten_cons, List.append_assoc]
    · rw [hfull, List.flatten_cons, List.length_append, UInt16.ofNat_add, UInt16.add_assoc]

/-! ## The server's side -/

namespace ProtocolServer

variable {s s' : ProtocolServer} {i : Input} {id : UInt16} {w : EventWatch}

/-- The forward Events of the socket so far. -/
def forwards (s : ProtocolServer) (id : UInt16) : List (Header × List UInt8) :=
  s.log.filterMap (Action.forwardOf id)

/-- What the backend returns to a forward that reads. -/
def readBy (w : EventWatch) (a : Answers) : List UInt8 :=
  if w.consumed ≥ w.maxLen.toUInt32 ∨ a.stop ≠ .kNone then [] else a.recvEnd.getD []

/-- The bytes a step takes off the stream: what the backend returns when the forward reads. -/
def received (id : UInt16) (s : ProtocolServer) (i : Input) : List UInt8 :=
  if s.fires i.trigger = some (.onWorkerReadable id) then
    match s.eventWatches[id]? with
    | none => []
    | some w => readBy w i.answers
  else []

/-- The step does not run the forward. -/
def PassesBy (id : UInt16) (s : ProtocolServer) (i : Input) : Prop :=
  s.fires i.trigger ≠ some (.onWorkerReadable id)

/-- The backend returns no more than it was asked for, and the steps that do not run the forward leave
its record, its watch and its Events alone. -/
structure LeavesForward (id : UInt16) (watch : Nat) (s : ProtocolServer) (i : Input) : Prop where
  bounded : ∀ w, s.eventWatches[id]? = some w → (received id s i).length ≤ w.want
  aside : PassesBy id s i →
    (s.step i).eventWatches[id]? = s.eventWatches[id]? ∧
    (s.step i).reactor.watches[watch]? = s.reactor.watches[watch]? ∧
    (s.step i).forwards id = s.forwards id

/-- A forward with a budget, whose Events hold all of a receive. -/
structure Budgeted (w : EventWatch) : Prop where
  kind : w.kind = .kRecvTcp
  limited : w.limitless = false
  maxFwd : 2048 ≤ w.maxFwd.toNat

theorem forwards_act_other {action : Action} (h : action.forwardOf id = none) :
    (s.act action).forwards id = s.forwards id := by
  simp [forwards, act, h]

theorem forwards_emitEvent (dat : List UInt8) (rid : UInt8) :
    (s.emitEvent id w.serviceId kGidTcp kPidReceiveAndForward dat w.peer rid).forwards id =
      s.forwards id ++ [(forwardHeader w rid, dat)] := by
  simp [forwards, emitEvent, act, Action.forwardOf, forwardHeader]

/-- The server no longer watches the socket. -/
structure Unwatched (id : UInt16) (watch : Nat) (s : ProtocolServer) : Prop where
  record : s.eventWatches[id]? = none
  watch : s.reactor.watches[watch]? = none

/-- What the forward does when it is run. -/
inductive ForwardStep (id : UInt16) (w : EventWatch) (data : List UInt8) (s s' : ProtocolServer) : Prop
  | spent (hdone : w.maxLen.toNat ≤ w.consumed.toNat) (hdata : data = [])
      (hstopped : Unwatched id w.id s') (hevents : s'.forwards id = s.forwards id)
  | ended (rid : UInt8) (hrid : rid ≠ kRidEOk) (hdata : data = [])
      (hstopped : Unwatched id w.id s')
      (hevents : s'.forwards id = s.forwards id ++ [endEvent w rid])
  | nothing (hroom : w.consumed.toNat < w.maxLen.toNat) (hdata : data = [])
      (hrecord : s'.eventWatches[id]? = some w) (hevents : s'.forwards id = s.forwards id)
  | chunk (hdata : data ≠ []) (hsmall : data.length ≤ 2048)
      (hroom : w.consumed.toNat + data.length < w.maxLen.toNat)
      (hrecord : s'.eventWatches[id]? =
        some { w with consumed := w.consumed + UInt32.ofNat data.length })
      (hevents : s'.forwards id = s.forwards id ++ [chunkEvent w data])
  | last (hdata : data ≠ []) (hsmall : data.length ≤ 2048)
      (hroom : w.consumed.toNat + data.length = w.maxLen.toNat)
      (hstopped : Unwatched id w.id s')
      (hevents : s'.forwards id = s.forwards id ++ [chunkEvent w data])

theorem maxLen_toNat (w : EventWatch) : w.maxLen.toUInt32.toNat = w.maxLen.toNat := by
  rw [UInt16.toNat_toUInt32]

/-- What is asked for is within the budget. -/
theorem want_le (hw : Budgeted w) (hroom : w.consumed.toNat < w.maxLen.toNat) :
    w.want ≤ 2048 ∧ w.consumed.toNat + w.want ≤ w.maxLen.toNat := by
  have hsub : (w.maxLen.toUInt32 - w.consumed).toNat = w.maxLen.toNat - w.consumed.toNat := by
    rw [UInt32.toNat_sub_of_le _ _ (UInt32.le_iff_toNat_le.mpr (by rw [maxLen_toNat]; omega)),
      maxLen_toNat]
  rw [EventWatch.want, if_neg (by rw [hw.limited]; simp), hsub]
  omega

/-- A receive with data, all of which fits the Event. -/
theorem recvForwardTcpOne_chunk {a : Answers} (hw : Budgeted w)
    (hroom : ¬ w.consumed ≥ w.maxLen.toUInt32) (hstop : a.stop = .kNone) {chunk : List UInt8}
    (hrecv : a.recvEnd = some chunk) (hne : chunk ≠ []) (hsmall : chunk.length ≤ 2048) :
    s.recvForwardTcpOne a w id =
      ((s.act (.recvEnd w.fd w.want)).emitEvent id w.serviceId kGidTcp kPidReceiveAndForward
          (chunkEvent w chunk).2 w.peer,
        { w with consumed := w.consumed + UInt32.ofNat chunk.length },
        decide (w.consumed + UInt32.ofNat chunk.length < w.maxLen.toUInt32)) := by
  have hfwd := hw.maxFwd
  have hlen : (UInt16.ofNat (min chunk.length w.maxFwd.toNat)).toNat = chunk.length := by
    rw [UInt16.toNat_ofNat', Nat.min_eq_left (by omega)]
    exact Nat.mod_eq_of_lt (by omega)
  rw [recvForwardTcpOne, if_neg (by rintro ⟨-, hdone⟩; exact hroom hdone)]
  simp only [hstop, ne_eq, not_true_eq_false, if_false, hrecv]
  rw [hlen, List.take_length, hw.limited, Bool.false_or]
  rfl

/-- What one receive does, from what the backend returns. -/
theorem onWorkerReadable_forward {a : Answers} (hw : Budgeted w) (hid : s.eventWatches[id]? = some w)
    (hbound : (readBy w a).length ≤ w.want) :
    ForwardStep id w (readBy w a) s (s.onWorkerReadable a id) := by
  have hgone : ∀ (s' : ProtocolServer) (n : Nat), Unwatched id n
      { s' with
        reactor := s'.reactor.removeWatch n, eventWatches := s'.eventWatches.erase id } := by
    intro s' n
    constructor
    · rw [TreeTable.getElem?_erase, if_pos rfl]
    · rw [Reactor.removeWatch, TreeTable.getElem?_erase, if_pos rfl]
  have hput : ∀ {m : Std.TreeMap UInt16 EventWatch} {w' : EventWatch},
      (m.insert id w')[id]? = some w' := by
    intro m w'
    rw [TreeTable.getElem?_insert, if_pos rfl]
  have hasked : ∀ n, (s.act (.recvEnd w.fd n)).forwards id = s.forwards id :=
    fun n => forwards_act_other rfl
  have hserve : s.serveOne a w id = s.recvForwardTcpOne a w id := by rw [serveOne, hw.kind]
  unfold readBy at hbound ⊢
  simp only [onWorkerReadable, hid, hserve]
  by_cases hdone : w.consumed ≥ w.maxLen.toUInt32
  · have hle : w.maxLen.toNat ≤ w.consumed.toNat := by
      have hnat := UInt32.le_iff_toNat_le.mp hdone
      rwa [maxLen_toNat] at hnat
    have hover : s.recvForwardTcpOne a w id = (s, w, false) := by
      rw [recvForwardTcpOne, if_pos ⟨hw.limited, hdone⟩]
    rw [hover, if_pos (Or.inl hdone)]
    exact .spent hle rfl (hgone _ _) rfl
  have hroom : w.consumed.toNat < w.maxLen.toNat := by
    have hnat := UInt32.lt_iff_toNat_lt.mp (UInt32.not_le.mp hdone)
    rwa [maxLen_toNat] at hnat
  by_cases hstop : a.stop = .kNone
  · have hreads : ¬ (w.consumed ≥ w.maxLen.toUInt32 ∨ a.stop ≠ .kNone) :=
      not_or.mpr ⟨hdone, not_not.mpr hstop⟩
    rw [if_neg hreads] at hbound ⊢
    by_cases hdata : a.recvEnd.getD [] = []
    · have hidle : s.recvForwardTcpOne a w id = (s.act (.recvEnd w.fd w.want), w, true) := by
        rw [recvForwardTcpOne, if_neg (by rintro ⟨-, h⟩; exact hdone h)]
        simp only [hstop, ne_eq, not_true_eq_false, if_false]
        split
        · rfl
        · rfl
        · next heq hne _ => simp_all
      rw [hidle]
      exact .nothing hroom hdata hput (hasked _)
    · obtain ⟨chunk, hrecv⟩ : ∃ chunk, a.recvEnd = some chunk :=
        Option.ne_none_iff_exists'.mp (by rintro hnone; exact hdata (by rw [hnone]; rfl))
      rw [hrecv, Option.getD_some] at hbound hdata ⊢
      obtain ⟨hsmall, hbudget⟩ := want_le hw hroom
      have hsum : (w.consumed + UInt32.ofNat chunk.length).toNat = w.consumed.toNat + chunk.length := by
        have hmax := w.maxLen.toNat_lt
        rw [UInt32.toNat_add, UInt32.toNat_ofNat']
        omega
      have hkeep : w.consumed + UInt32.ofNat chunk.length < w.maxLen.toUInt32 ↔
          w.consumed.toNat + chunk.length < w.maxLen.toNat := by
        rw [UInt32.lt_iff_toNat_lt, hsum, maxLen_toNat]
      rw [recvForwardTcpOne_chunk hw hdone hstop hrecv hdata (by omega)]
      have hsent : ((s.act (.recvEnd w.fd w.want)).emitEvent id w.serviceId kGidTcp
          kPidReceiveAndForward (chunkEvent w chunk).2 w.peer).forwards id =
          s.forwards id ++ [chunkEvent w chunk] := by
        rw [← hasked w.want]
        exact forwards_emitEvent _ _
      by_cases hlt : w.consumed + UInt32.ofNat chunk.length < w.maxLen.toUInt32
      · simp only [decide_eq_true hlt, if_true]
        exact .chunk hdata (by omega) (hkeep.mp hlt) hput hsent
      · have hfull := mt hkeep.mpr hlt
        simp only [decide_eq_false hlt, Bool.false_eq_true, if_false]
        exact .last hdata (by omega) (by omega) (hgone _ _) hsent
  · have hends : s.recvForwardTcpOne a w id =
        ((s.act (.recvEnd w.fd w.want)).endForward id w
          (if a.stop = .kReset then kRidETcpCre else kRidETcpCoc), w, false) := by
      rw [recvForwardTcpOne, if_neg (by rintro ⟨-, h⟩; exact hdone h)]
      simp only [if_pos hstop]
    rw [hends, if_pos (Or.inr hstop)]
    refine .ended (if a.stop = .kReset then kRidETcpCre else kRidETcpCoc) (by split <;> decide) rfl
      (hgone _ _) ?_
    rw [← hasked w.want]
    exact forwards_emitEvent _ _

/-- The record once it has sent the chunks. -/
def afterChunks (w : EventWatch) (chunks : List (List UInt8)) : EventWatch :=
  { w with consumed := UInt32.ofNat chunks.flatten.length }

theorem Budgeted.afterChunks (hw : Budgeted w) (chunks : List (List UInt8)) :
    Budgeted (afterChunks w chunks) := ⟨hw.kind, hw.limited, hw.maxFwd⟩

theorem consumed_afterChunks {chunks : List (List UInt8)}
    (hbudget : chunks.flatten.length ≤ w.maxLen.toNat) :
    (afterChunks w chunks).consumed.toNat = chunks.flatten.length := by
  have hmax := w.maxLen.toNat_lt
  rw [afterChunks, UInt32.toNat_ofNat']
  exact Nat.mod_eq_of_lt (by omega)

theorem afterChunks_append (w : EventWatch) (chunks : List (List UInt8)) (data : List UInt8) :
    afterChunks w (chunks ++ [data]) =
      { afterChunks w chunks with
        consumed := (afterChunks w chunks).consumed + UInt32.ofNat data.length } := by
  simp [afterChunks, UInt32.ofNat_add]

/-- Where the forward stands: the chunks it has sent, how it ended if it did, and its record with the
budget it has used, until it is spent or the stream ends. `Idle` says that it has not run yet, which is
what keeps the record of a forward with no budget at all. -/
structure Progress (id : UInt16) (w : EventWatch) (sent : List (Header × List UInt8)) (Idle : Prop)
    (s : ProtocolServer) (chunks : List (List UInt8)) (fin : Option UInt8) : Prop where
  events : s.forwards id = sent ++ (chunks.map (chunkEvent w) ++ (fin.map (endEvent w)).toList)
  nonempty : ∀ c ∈ chunks, c ≠ []
  small : ∀ c ∈ chunks, c.length ≤ 2048
  budget : chunks.flatten.length ≤ w.maxLen.toNat
  fails : ∀ rid, fin = some rid → rid ≠ kRidEOk
  record :
    (fin = none ∧ (chunks.flatten.length < w.maxLen.toNat ∨ Idle) ∧
      s.eventWatches[id]? = some (afterChunks w chunks)) ∨
    Unwatched id w.id s

theorem Progress.of_armed (hid : s.eventWatches[id]? = some w) (hzero : w.consumed = 0) :
    Progress id w (s.forwards id) True s [] none where
  events := by simp
  nonempty := by simp
  small := by simp
  budget := Nat.zero_le _
  fails := nofun
  record := by
    refine .inl ⟨rfl, .inr trivial, ?_⟩
    change s.eventWatches[id]? = some { w with consumed := 0 }
    rw [hid, ← hzero]

theorem received_passesBy (h : PassesBy id s i) : received id s i = [] := if_neg h

theorem received_no_record (h : s.eventWatches[id]? = none) : received id s i = [] := by
  simp [received, h]

theorem step_onWorkerReadable (h : s.fires i.trigger = some (.onWorkerReadable id)) :
    s.step i = (s.entered i).onWorkerReadable i.answers id := by
  simp only [step, h, runHandler, entered]

@[simp] theorem forwards_entered : (s.entered i).forwards id = s.forwards id := by
  unfold entered prepare
  split <;> rfl

@[simp] theorem eventWatches_entered : (s.entered i).eventWatches = s.eventWatches := by
  unfold entered prepare
  split <;> rfl

@[simp] theorem watches_entered : (s.entered i).reactor.watches = s.reactor.watches := by
  unfold entered prepare Reactor.expire
  split
  · rfl
  · dsimp only
    split
    · rfl
    · split <;> rfl

theorem received_runs (hruns : s.fires i.trigger = some (.onWorkerReadable id))
    (hid : s.eventWatches[id]? = some w) : received id s i = readBy w i.answers := by
  rw [received, if_pos hruns, hid]

theorem Unwatched.entered {n : Nat} (h : Unwatched id n s) : Unwatched id n (s.entered i) := by
  constructor
  · rw [eventWatches_entered, h.record]
  · rw [watches_entered, h.watch]

section Progress

variable {sent : List (Header × List UInt8)} {Idle : Prop} {chunks : List (List UInt8)}
  {fin : Option UInt8}

theorem Progress.entered (h : Progress id w sent Idle s chunks fin) :
    Progress id w sent Idle (s.entered i) chunks fin := by
  refine { h with events := ?_, record := ?_ }
  · rw [forwards_entered, h.events]
  · rw [eventWatches_entered]
    exact h.record.imp_right Unwatched.entered

/-- A chunk more, whatever becomes of the record. -/
theorem Progress.add_chunk (h : Progress id w sent Idle s chunks none) {data : List UInt8}
    (hdata : data ≠ []) (hsmall : data.length ≤ 2048)
    (hroom : chunks.flatten.length + data.length ≤ w.maxLen.toNat)
    (hsent : s'.forwards id = s.forwards id ++ [chunkEvent w data])
    (hrecord : chunks.flatten.length + data.length < w.maxLen.toNat ∧
        s'.eventWatches[id]? = some (afterChunks w (chunks ++ [data])) ∨ Unwatched id w.id s') :
    Progress id w sent False s' (chunks ++ [data]) none := by
  have hlen : (chunks ++ [data]).flatten.length = chunks.flatten.length + data.length := by simp
  constructor
  case events =>
    rw [hsent, h.events]
    simp
  case nonempty =>
    intro c hc
    rcases List.mem_append.mp hc with hold | hnew
    · exact h.nonempty c hold
    · rwa [List.mem_singleton.mp hnew]
  case small =>
    intro c hc
    rcases List.mem_append.mp hc with hold | hnew
    · exact h.small c hold
    · rwa [List.mem_singleton.mp hnew]
  case budget => rwa [hlen]
  case fails => exact nofun
  case record =>
    rw [hlen]
    exact hrecord.imp_left (fun hkept => ⟨rfl, .inl hkept.1, hkept.2⟩)

/-- The worker adds to the chunks what it reads. -/
theorem Progress.worker (hw : Budgeted w) (h : Progress id w sent Idle s chunks none)
    (hid : s.eventWatches[id]? = some (afterChunks w chunks)) {a : Answers}
    (hbound : (readBy (afterChunks w chunks) a).length ≤ (afterChunks w chunks).want) :
    ∃ more fin', Progress id w sent False (s.onWorkerReadable a id) (chunks ++ more) fin' ∧
      more.flatten = readBy (afterChunks w chunks) a := by
  have hconsumed := consumed_afterChunks h.budget
  have hstep := onWorkerReadable_forward (hw.afterChunks chunks) hid hbound
  generalize readBy (afterChunks w chunks) a = data at hstep
  cases hstep with
  | spent hdone hdata hstopped hsent =>
    refine ⟨[], none, ?_, hdata.symm⟩
    rw [List.append_nil]
    exact { h with events := hsent.trans h.events, record := .inr hstopped }
  | ended rid hrid hdata hstopped hsent =>
    refine ⟨[], some rid, ?_, hdata.symm⟩
    rw [List.append_nil]
    refine { h with events := ?_, fails := ?_, record := .inr hstopped }
    · rw [hsent, h.events, Option.map_none, Option.toList_none, List.append_nil, List.append_assoc]
      rfl
    · rintro _ ⟨⟩
      exact hrid
  | nothing hroom hdata hrecord hsent =>
    refine ⟨[], none, ?_, hdata.symm⟩
    rw [List.append_nil]
    rw [hconsumed] at hroom
    exact { h with events := hsent.trans h.events, record := .inl ⟨rfl, .inl hroom, hrecord⟩ }
  | chunk hdata hsmall hroom hrecord hsent =>
    rw [hconsumed] at hroom
    rw [← afterChunks_append] at hrecord
    exact ⟨[data], none, h.add_chunk hdata hsmall hroom.le hsent (.inl ⟨hroom, hrecord⟩), by simp⟩
  | last hdata hsmall hroom hstopped hsent =>
    rw [hconsumed] at hroom
    exact ⟨[data], none, h.add_chunk hdata hsmall hroom.le hsent (.inr hstopped), by simp⟩

/-- What one step adds to the chunks is what it took off the stream. -/
theorem Progress.step (hw : Budgeted w) (h : Progress id w sent Idle s chunks fin)
    (hok : LeavesForward id w.id s i) :
    ∃ more fin', Progress id w sent (Idle ∧ PassesBy id s i) (s.step i) (chunks ++ more) fin' ∧
      more.flatten = received id s i := by
  by_cases hfires : PassesBy id s i
  · obtain ⟨hrecord, hwatch, hevents⟩ := hok.aside hfires
    refine ⟨[], fin, ?_, (received_passesBy hfires).symm⟩
    rw [List.append_nil]
    refine { h with events := hevents.trans h.events, record := ?_ }
    rcases h.record with ⟨hfin, hroom, hkept⟩ | hgone
    · exact .inl ⟨hfin, hroom.imp_right (⟨·, hfires⟩), hrecord.trans hkept⟩
    · exact .inr ⟨hrecord.trans hgone.record, hwatch.trans hgone.watch⟩
  have hruns := not_not.mp hfires
  rcases h.record with ⟨rfl, -, hkept⟩ | hgone
  · have hread := received_runs hruns hkept
    have hbound := hok.bounded _ hkept
    rw [hread] at hbound
    obtain ⟨more, fin', hrun, hmore⟩ := (h.entered (i := i)).worker hw (by rw [eventWatches_entered, hkept]) hbound
    refine ⟨more, fin', ?_, hmore.trans hread.symm⟩
    rw [step_onWorkerReadable hruns]
    exact { hrun with record := hrun.record.imp_left (fun h => ⟨h.1, h.2.1.imp_right nofun, h.2.2⟩) }
  · -- the worker finds no record and returns
    have hstep : s.step i = s.entered i := by
      rw [step_onWorkerReadable hruns]
      simp [onWorkerReadable, hgone.record]
    refine ⟨[], fin, ?_, (received_no_record hgone.record).symm⟩
    rw [List.append_nil, hstep]
    exact { h.entered with record := .inr (hgone.entered) }

theorem Progress.run (hw : Budgeted w) (h : Progress id w sent Idle s chunks fin) {is : List Input}
    (hok : Along ProtocolServer.step (LeavesForward id w.id) s is) :
    ∃ more fin', Progress id w sent (Idle ∧ Along ProtocolServer.step (PassesBy id) s is) (s.run is)
        (chunks ++ more) fin' ∧
      more.flatten = observe ProtocolServer.step (received id) s is := by
  induction is generalizing s Idle chunks fin with
  | nil =>
    refine ⟨[], fin, ?_, rfl⟩
    rw [List.append_nil]
    refine { h with record := ?_ }
    exact h.record.imp_left (fun hkept => ⟨hkept.1, hkept.2.1.imp_right (⟨·, along_nil⟩), hkept.2.2⟩)
  | cons i is ih =>
    obtain ⟨more, fin', hstep, hread⟩ := h.step hw hok.head
    obtain ⟨rest, fin'', hrun, hreads⟩ := ih hstep hok.tail
    refine ⟨more ++ rest, fin'', ?_, ?_⟩
    · rw [along_cons, ← and_assoc, ← List.append_assoc]
      exact hrun
    · rw [List.flatten_append, hread, hreads, observe]

end Progress

/-! ## The stream at the tester -/

/-- The arm leaves the record of the forward. -/
theorem receiveAndForward_arms {a : Answers} {fd : Int} {maxFwd maxLen serviceId : UInt16}
    {peer : Endpoint} (hfd : s.lookupSocket id = some fd) (hpending : s.pendingConnects[id]? = none) :
    ∃ n, (s.receiveAndForward a (testabilityReceiveAndForwardRequest kGidTcp id maxFwd maxLen).dat
      serviceId peer false).1.eventWatches[id]? =
        some { makeWatch ⟨id, maxFwd, maxLen⟩ fd serviceId peer false with id := n } := by
  simp only [receiveAndForward, parse_receiveAndForward, hfd, hpending, armEventWatch,
    TreeTable.getElem?_insert, if_true]
  exact ⟨_, rfl⟩

/-- What reaches the tester of a forward with the budget `maxLen`, the backend having returned `got` of
what the peer sends. -/
structure Reassembles (maxLen : UInt16) (stream got : List UInt8)
    (events : List (Header × List UInt8)) : Prop where
  payload : (events.map payloadOf).flatten = stream.take (min maxLen.toNat got.length)
  fullLen : (events.map fullLenOf).sum = min maxLen.toNat got.length
  drained : got = stream ∨ maxLen.toNat ≤ got.length →
    (events.map payloadOf).flatten = stream.take (min maxLen.toNat stream.length)
  collected : ∀ response, (armEventSocket response kGidTcp kPidReceiveAndForward).armed = true →
    (testabilityReceiveAndForward maxLen response (events.map datagramOf)).payload =
      (events.map payloadOf).flatten ∧
    (testabilityReceiveAndForward maxLen response (events.map datagramOf)).fullLen.toNat =
      min maxLen.toNat got.length

theorem flatten_payloadOf (chunks : List (List UInt8)) (fin : Option UInt8)
    (hsmall : ∀ c ∈ chunks, c.length ≤ 2048) :
    ((chunks.map (chunkEvent w) ++ (fin.map (endEvent w)).toList).map payloadOf).flatten =
      chunks.flatten := by
  have hchunks : (chunks.map (chunkEvent w)).map payloadOf = chunks := by
    rw [List.map_map]
    conv_rhs => rw [← List.map_id chunks]
    exact List.map_congr_left (fun c hc => payloadOf_chunkEvent w (by have := hsmall c hc; omega))
  rw [List.map_append, hchunks, List.flatten_append]
  cases fin <;> simp [payloadOf_endEvent]

theorem sum_fullLenOf (chunks : List (List UInt8)) (fin : Option UInt8)
    (hsmall : ∀ c ∈ chunks, c.length ≤ 2048) :
    ((chunks.map (chunkEvent w) ++ (fin.map (endEvent w)).toList).map fullLenOf).sum =
      chunks.flatten.length := by
  have hchunks : (chunks.map (chunkEvent w)).map fullLenOf = chunks.map List.length := by
    rw [List.map_map]
    exact List.map_congr_left (fun c hc => fullLenOf_chunkEvent w (by have := hsmall c hc; omega))
  rw [List.map_append, hchunks, List.sum_append, List.length_flatten]
  cases fin <;> simp [fullLenOf_endEvent]

/-- The Events of a forward, put together by the tester. -/
theorem Progress.reassembles {sent : List (Header × List UInt8)} {Idle : Prop}
    {chunks : List (List UInt8)} {fin : Option UInt8} {stream : List UInt8}
    (hlimit : w.maxLen ≠ 0xFFFF) (h : Progress id w sent Idle s chunks fin)
    (hstream : chunks.flatten <+: stream) :
    Reassembles w.maxLen stream chunks.flatten
      (chunks.map (chunkEvent w) ++ (fin.map (endEvent w)).toList) := by
  have hmin : min w.maxLen.toNat chunks.flatten.length = chunks.flatten.length :=
    Nat.min_eq_right h.budget
  have hpayload := flatten_payloadOf (w := w) chunks fin h.small
  have htake := List.prefix_iff_eq_take.mp hstream
  have hlong := hstream.length_le
  have hbudget := h.budget
  constructor
  case payload => rw [hpayload, hmin, ← htake]
  case fullLen => rw [sum_fullLenOf chunks fin h.small, hmin]
  case drained =>
    rintro (hall | hspent)
    · rw [hpayload, ← hall, hmin, List.take_length]
    · rw [hpayload, Nat.min_eq_left (hspent.trans hlong), Nat.le_antisymm hspent hbudget, ← htake]
  case collected =>
    intro response harmed
    have hsum := collectForward_chunks hlimit w chunks fin true
      { ok := true, responded := (armEventSocket response kGidTcp kPidReceiveAndForward).responded
        rid := (armEventSocket response kGidTcp kPidReceiveAndForward).rid
        dropCnt :=
          if (armEventSocket response kGidTcp kPidReceiveAndForward).respDat.length ≥ 2 then
            readU16 (armEventSocket response kGidTcp kPidReceiveAndForward).respDat 0
          else 0 }
      h.nonempty h.small (by simpa using h.budget) h.fails
    rw [testabilityReceiveAndForward, harmed]
    simp only [Bool.true_eq_false, if_false]
    rw [hsum.1, hsum.2, hpayload, hmin]
    refine ⟨rfl, ?_⟩
    have hmax := w.maxLen.toNat_lt
    rw [UInt16.toNat_add, UInt16.toNat_ofNat']
    change (0 + _) % _ = _
    omega

/-- **A forwarded stream reassembles.** From the arm on, whatever the backend returns of the stream at
each receive, within what it was asked for: the payloads of the forward Events are the beginning of the
stream up to the budget, their lengths add up to it, the tester's loop returns both, and once the budget
is spent the socket is not watched any more. -/
theorem forward_reassembles (s : ProtocolServer) (id : UInt16) (req : ForwardReq) (fd : Int)
    (serviceId : UInt16) (peer : Endpoint) (n : Nat) (stream : List UInt8) (is : List Input)
    (hfwd : 2048 ≤ req.maxFwd.toNat) (hlimit : req.maxLen ≠ 0xFFFF)
    (harmed : s.eventWatches[id]? = some { makeWatch req fd serviceId peer false with id := n })
    (hok : Along step (LeavesForward id n) s is)
    (hstream : observe step (received id) s is <+: stream) :
    ∃ events, (s.run is).forwards id = s.forwards id ++ events ∧
      Reassembles req.maxLen stream (observe step (received id) s is) events ∧
      (¬ Along step (PassesBy id) s is →
        req.maxLen.toNat ≤ (observe step (received id) s is).length → Unwatched id n (s.run is)) := by
  have hw : Budgeted { makeWatch req fd serviceId peer false with id := n } :=
    ⟨rfl, decide_eq_false hlimit, hfwd⟩
  obtain ⟨chunks, fin, hprogress, hread⟩ := (Progress.of_armed harmed rfl).run hw hok
  rw [List.nil_append] at hprogress
  rw [← hread] at hstream ⊢
  refine ⟨_, hprogress.events, hprogress.reassembles hlimit hstream, ?_⟩
  intro hran hspent
  rcases hprogress.record with ⟨-, hroom | hidle, -⟩ | hgone
  · exact absurd hroom (Nat.not_lt.mpr hspent)
  · exact absurd hidle.2 hran
  · exact hgone

instance (id : UInt16) (s : ProtocolServer) (i : Input) : Decidable (PassesBy id s i) :=
  inferInstanceAs (Decidable (_ ≠ _))

instance (id : UInt16) (n : Nat) (s : ProtocolServer) (i : Input) :
    Decidable (LeavesForward id n s i) :=
  decidable_of_iff
    ((∀ w ∈ s.eventWatches[id]?, (received id s i).length ≤ w.want) ∧
      (PassesBy id s i →
        (s.step i).eventWatches[id]? = s.eventWatches[id]? ∧
        (s.step i).reactor.watches[n]? = s.reactor.watches[n]? ∧
        (s.step i).forwards id = s.forwards id))
    ⟨fun h => ⟨h.1, h.2⟩, fun h => ⟨h.bounded, h.aside⟩⟩

/-- A socket with a forward of five bytes armed. -/
def armedServer : ProtocolServer :=
  (start 3).run
    [requestInput kGidTcp kPidCreateAndBind [0, 0, 0, 0, 0] { create := 10 },
      requestInput kGidTcp kPidReceiveAndForward
        (testabilityReceiveAndForwardRequest kGidTcp 1 2048 5).dat {}]

/-- Two receives, with another socket opened between them. -/
def twoReceives : List Input :=
  [⟨.watch 2, { recvEnd := some [1, 2, 3] }⟩,
    requestInput kGidTcp kPidCreateAndBind [0, 0, 0, 0, 0] { create := 11 },
    ⟨.watch 2, { recvEnd := some [4, 5] }⟩]

/-- The second receive spends the budget. -/
theorem forward_reassembles_two_receives :
    ∃ events, (armedServer.run twoReceives).forwards 1 = armedServer.forwards 1 ++ events ∧
      Reassembles 5 [1, 2, 3, 4, 5, 6, 7] [1, 2, 3, 4, 5] events ∧
      Unwatched 1 2 (armedServer.run twoReceives) := by
  have hread : observe step (received 1) armedServer twoReceives = [1, 2, 3, 4, 5] := by
    decide +kernel
  obtain ⟨events, hevents, hall, hstops⟩ := forward_reassembles armedServer 1 ⟨1, 2048, 5⟩ 10
    kDefaultServiceId {} 2 [1, 2, 3, 4, 5, 6, 7] twoReceives (by decide) (by decide)
    (by decide +kernel) (by decide +kernel) (by rw [hread]; decide)
  rw [hread] at hall hstops
  exact ⟨events, hevents, hall, hstops (by decide +kernel) (by decide)⟩

end ProtocolServer

end Tc8Harness.Testability
