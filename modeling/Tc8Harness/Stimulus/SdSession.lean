import Tc8Harness.Lib.Observe
import Tc8Harness.Someip.SdDecode

/-!
# The SD Session counter

`src/stimulus/sd_session.cpp`: one counter per stream of SD messages, drawn from by the emitters and
told by the send primitives what went out. A report of a drawn Session retires the draw; any other
Session is one the sender chose, and moves the stream. Every call holds one mutex, so what the threads
of a case do is a sequence of calls.

`Counting` is the invariant of a stream that nobody moves on purpose: what it remembers as outstanding
is exactly the draws not yet reported, and its counter is a function of how many draws there were.
`draws_eq` concludes for whole runs, with any order of reports and any calls on other streams.
`chosen_moves_iff` is about a Session that is chosen: a draw is recognised by its value alone.
-/

namespace Tc8Harness.Stimulus

open Wire Someip Observe
open SomeipTp (Buffer)

/-! ## The counter -/

def kSdSessionFirst : UInt16 := 0x0001

structure SdSession where
  sessionId : UInt16 := kSdSessionFirst
  reboot : Bool := true
  deriving DecidableEq, Repr

def kSessionOffset : Nat := 10
def kSdFlagsOffset : Nat := 16
def kMaxOutstandingDraws : Nat := 64

structure Stream where
  next : UInt16 := kSdSessionFirst
  reboot : Bool := true
  outstanding : List UInt16 := []
  deriving DecidableEq, Repr

/-- Source and destination address. -/
abbrev StreamKey := UInt32 × UInt32

/-- `g_streams`; a stream never used is as `operator[]` creates it. -/
abbrev Streams := StreamKey → Stream

/-- Move the stream past `sent`. -/
def advancePast (s : Stream) (sent : UInt16) : Stream :=
  if sent = 0xFFFF then { s with next := kSdSessionFirst, reboot := false }
  else { s with next := sent + 1 }

/-- `nextSdSession` on its stream. -/
def Stream.draw (s : Stream) : SdSession × Stream :=
  let out : SdSession := ⟨s.next, s.reboot⟩
  let s := advancePast s out.sessionId
  let outstanding :=
    if s.outstanding.length ≥ kMaxOutstandingDraws then s.outstanding.tail else s.outstanding
  (out, { s with outstanding := outstanding ++ [out.sessionId] })

def nextSdSession (streams : Streams) (key : StreamKey) : SdSession × Streams :=
  ((streams key).draw.1, Function.update streams key (streams key).draw.2)

/-- The Session and the Reboot bit of an SD datagram; `none` for what `noteSdDatagramSent` ignores. -/
def sdDatagramSession? (datagram : Buffer) : Option SdSession :=
  match datagram with
  | .null _ => none
  | .bytes p =>
    if p.length ≤ kSdFlagsOffset then none
    else if readBe16 p 0 ≠ kSdServiceId ∨ readBe16 p 2 ≠ kSdMethodId then none
    else some ⟨readBe16 p kSessionOffset, (p.getD kSdFlagsOffset 0 &&& kReboot) != 0⟩

/-- `noteSdDatagramSent` on its stream. -/
def Stream.note (s : Stream) (sent : SdSession) : Stream :=
  if sent.sessionId ∈ s.outstanding then
    { s with outstanding := s.outstanding.erase sent.sessionId }
  else
    { advancePast { s with reboot := sent.reboot } sent.sessionId with outstanding := [] }

def noteSdDatagramSent (streams : Streams) (key : StreamKey) (datagram : Buffer) : Streams :=
  match sdDatagramSession? datagram with
  | none => streams
  | some sent => Function.update streams key ((streams key).note sent)

/-! ## Runs -/

inductive SdCall where
  | nextSdSession (key : StreamKey)
  | noteSdDatagramSent (key : StreamKey) (datagram : Buffer)

def sdStep (streams : Streams) : SdCall → Streams
  | .nextSdSession key => (nextSdSession streams key).2
  | .noteSdDatagramSent key datagram => noteSdDatagramSent streams key datagram

/-- What a call draws from the stream. -/
def drawOf (key : StreamKey) (streams : Streams) : SdCall → List SdSession
  | .nextSdSession key' => if key' = key then [(nextSdSession streams key').1] else []
  | .noteSdDatagramSent _ _ => []

/-- The successive draws of the stream. -/
def draws (key : StreamKey) (calls : List SdCall) : List SdSession :=
  observe sdStep (drawOf key) (fun _ => {}) calls

/-- The SD Session a call reports for the stream. -/
def SdCall.reports? (key : StreamKey) : SdCall → Option UInt16
  | .nextSdSession _ => none
  | .noteSdDatagramSent key' datagram =>
    if key' = key then (sdDatagramSession? datagram).map SdSession.sessionId else none

/-- The draws of the stream that no report has named yet, after one more call. -/
def unreportedAfter (key : StreamKey) (streams : Streams) (unreported : List UInt16)
    (call : SdCall) : List UInt16 :=
  match call.reports? key with
  | some session => unreported.erase session
  | none => unreported ++ (drawOf key streams call).map SdSession.sessionId

/-- The streams, with the unreported draws of one of them. -/
abbrev Watched := Streams × List UInt16

def watchStep (key : StreamKey) (w : Watched) (call : SdCall) : Watched :=
  (sdStep w.1 call, unreportedAfter key w.1 w.2 call)

/-- The call reports no Session of the stream but an unreported draw, and leaves at most 64 of
them. -/
structure Proper (key : StreamKey) (w : Watched) (call : SdCall) : Prop where
  drawn : ∀ session, call.reports? key = some session → session ∈ w.2
  bounded : (unreportedAfter key w.1 w.2 call).length ≤ 64

instance (key : StreamKey) (w : Watched) (call : SdCall) : Decidable (Proper key w call) :=
  decidable_of_iff
    ((call.reports? key).all (· ∈ w.2) = true ∧ (unreportedAfter key w.1 w.2 call).length ≤ 64)
    (by
      rw [Option.all_eq_true]
      simp only [decide_eq_true_eq]
      exact ⟨fun h => ⟨h.1, h.2⟩, fun h => ⟨h.drawn, h.bounded⟩⟩)

/-- A run from the start of the process in which every call is proper for the stream. -/
def ProperRun (key : StreamKey) (calls : List SdCall) : Prop :=
  Along (watchStep key) (Proper key) (fun _ => {}, []) calls

instance (key : StreamKey) (calls : List SdCall) : Decidable (ProperRun key calls) :=
  inferInstanceAs (Decidable (Along (watchStep key) (Proper key) (fun _ => {}, []) calls))

/-! ## A stream nobody moves -/

/-- The `n`-th draw, from 0: the Sessions 1 to 0xFFFF over and over, with Reboot the first time. -/
def sessionAt (n : Nat) : SdSession := ⟨UInt16.ofNat (n % 65535 + 1), decide (n < 65535)⟩

/-- After `n` draws. -/
structure Counting (s : Stream) (unreported : List UInt16) (n : Nat) : Prop where
  next : s.next = (sessionAt n).sessionId
  reboot : s.reboot = (sessionAt n).reboot
  outstanding : s.outstanding = unreported

theorem sessionAt_toNat (n : Nat) : (sessionAt n).sessionId.toNat = n % 65535 + 1 := by
  rw [sessionAt, UInt16.toNat_ofNat']
  omega

/-- Passing the `n`-th draw leaves the counter at the next one. -/
theorem advancePast_sessionAt {s : Stream} {n : Nat} (hreboot : s.reboot = (sessionAt n).reboot) :
    (advancePast s (sessionAt n).sessionId).next = (sessionAt (n + 1)).sessionId ∧
      (advancePast s (sessionAt n).sessionId).reboot = (sessionAt (n + 1)).reboot ∧
      (advancePast s (sessionAt n).sessionId).outstanding = s.outstanding := by
  have hn := sessionAt_toNat n
  have hn' := sessionAt_toNat (n + 1)
  unfold advancePast
  split
  · next hlast =>
    -- The wrap: `n` is the last draw of its round.
    rw [hlast] at hn
    have hround : n % 65535 + 1 = 65535 := hn.symm
    refine ⟨UInt16.toNat_inj.1 ?_, ?_, rfl⟩
    · rw [hn']
      change 1 = _
      omega
    · simp only [sessionAt]
      symm
      rw [decide_eq_false_iff_not]
      omega
  · next hlast =>
    have hround : n % 65535 + 1 ≠ 65535 := by
      intro heq
      exact hlast (UInt16.toNat_inj.1 (hn.trans heq))
    refine ⟨UInt16.toNat_inj.1 ?_, ?_, rfl⟩
    · rw [hn', UInt16.toNat_add, hn]
      change (n % 65535 + 1 + 1) % 65536 = _
      omega
    · rw [hreboot]
      simp only [sessionAt, decide_eq_decide]
      omega

theorem Counting.draw {s : Stream} {unreported : List UInt16} {n : Nat}
    (h : Counting s unreported n) (hroom : unreported.length < 64) :
    s.draw.1 = sessionAt n ∧
      Counting s.draw.2 (unreported ++ [(sessionAt n).sessionId]) (n + 1) := by
  obtain ⟨hnext, hreboot, houtstanding⟩ := advancePast_sessionAt h.reboot
  have hkeep : ¬ (advancePast s (sessionAt n).sessionId).outstanding.length ≥ kMaxOutstandingDraws := by
    rw [houtstanding, h.outstanding]
    simp only [kMaxOutstandingDraws]
    omega
  refine ⟨?_, ?_⟩
  · rw [Stream.draw, h.next, h.reboot]
  · rw [Stream.draw, h.next]
    simp only [if_neg hkeep]
    exact ⟨hnext, hreboot, by rw [houtstanding, h.outstanding]⟩

/-- The report of an unreported draw retires it and moves nothing. -/
theorem Counting.note {s : Stream} {unreported : List UInt16} {n : Nat}
    (h : Counting s unreported n) {sent : SdSession} (hdrawn : sent.sessionId ∈ unreported) :
    Counting (s.note sent) (unreported.erase sent.sessionId) n := by
  rw [Stream.note, if_pos (by rw [h.outstanding]; exact hdrawn)]
  exact ⟨h.next, h.reboot, by rw [h.outstanding]⟩

/-- One proper call: a draw of the stream is the next one, and anything else leaves it counting. -/
theorem Counting.step {key : StreamKey} {w : Watched} {n : Nat} {call : SdCall}
    (h : Counting (w.1 key) w.2 n) (hproper : Proper key w call) :
    (drawOf key w.1 call = [] ∧
        Counting ((watchStep key w call).1 key) (watchStep key w call).2 n) ∨
      (drawOf key w.1 call = [sessionAt n] ∧
        Counting ((watchStep key w call).1 key) (watchStep key w call).2 (n + 1)) := by
  cases call with
  | nextSdSession key' =>
    by_cases hkey : key' = key
    · subst hkey
      right
      have hbounded := hproper.bounded
      simp only [unreportedAfter, SdCall.reports?, drawOf, if_true, List.map_cons, List.map_nil,
        List.length_append, List.length_singleton] at hbounded
      obtain ⟨hdraw, hcounting⟩ := h.draw (by omega)
      have hout : (nextSdSession w.1 key').1 = sessionAt n := hdraw
      refine ⟨?_, ?_⟩
      · rw [drawOf, if_pos rfl, hout]
      · simp only [watchStep, sdStep, nextSdSession, Function.update_self, unreportedAfter,
          SdCall.reports?, drawOf, if_true, List.map_cons, List.map_nil, hdraw]
        exact hcounting
    · left
      refine ⟨if_neg hkey, ?_⟩
      simp only [watchStep, sdStep, nextSdSession, Function.update_of_ne (Ne.symm hkey),
        unreportedAfter, SdCall.reports?, drawOf, if_neg hkey, List.map_nil, List.append_nil]
      exact h
  | noteSdDatagramSent key' datagram =>
    left
    refine ⟨rfl, ?_⟩
    cases hsent : sdDatagramSession? datagram with
    | none =>
      simp only [watchStep, sdStep, noteSdDatagramSent, hsent, unreportedAfter, SdCall.reports?,
        Option.map_none, ite_self, drawOf, List.map_nil, List.append_nil]
      exact h
    | some sent =>
      by_cases hkey : key' = key
      · subst hkey
        have hreports : (SdCall.noteSdDatagramSent key' datagram).reports? key' =
            some sent.sessionId := by
          rw [SdCall.reports?, if_pos rfl, hsent, Option.map_some]
        have hdrawn := hproper.drawn sent.sessionId hreports
        simp only [watchStep, sdStep, noteSdDatagramSent, hsent, Function.update_self,
          unreportedAfter, hreports]
        exact h.note hdrawn
      · simp only [watchStep, sdStep, noteSdDatagramSent, hsent,
          Function.update_of_ne (Ne.symm hkey), unreportedAfter, SdCall.reports?, if_neg hkey, drawOf,
          List.map_nil, List.append_nil]
        exact h

/-- The draws of a proper run from a stream that has counted to `n` are the next ones in order. -/
theorem Counting.observe {key : StreamKey} {calls : List SdCall} {w : Watched} {n : Nat}
    (h : Counting (w.1 key) w.2 n) (hproper : Along (watchStep key) (Proper key) w calls) :
    observe sdStep (drawOf key) w.1 calls =
      (List.range' n (observe sdStep (drawOf key) w.1 calls).length).map sessionAt := by
  induction calls generalizing w n with
  | nil => rfl
  | cons call calls ih =>
    rw [Observe.observe]
    obtain ⟨hdraw, hcounting⟩ | ⟨hdraw, hcounting⟩ := h.step hproper.head
    · rw [hdraw, List.nil_append]
      exact ih hcounting hproper.tail
    · rw [hdraw, List.length_append, List.length_singleton, Nat.add_comm 1, List.range'_succ,
        List.map_cons, List.singleton_append]
      exact congrArg (sessionAt n :: ·) (ih hcounting hproper.tail)

/-- **The draws of a stream.** Whatever order the reports come in and whatever the other streams do,
they run through 1 to 0xFFFF over and over, never 0, and announce a reboot the first time only. -/
theorem draws_eq (key : StreamKey) (calls : List SdCall) (h : ProperRun key calls) :
    draws key calls = (List.range (draws key calls).length).map sessionAt ∧
      ∀ drawn ∈ draws key calls, drawn.sessionId ≠ 0 := by
  have hstart : Counting {} [] 0 := ⟨rfl, rfl, rfl⟩
  have hdraws : draws key calls = (List.range (draws key calls).length).map sessionAt := by
    rw [List.range_eq_range']
    exact hstart.observe h
  refine ⟨hdraws, ?_⟩
  intro drawn hmem hzero
  rw [hdraws, List.mem_map] at hmem
  obtain ⟨n, -, rfl⟩ := hmem
  have hn := sessionAt_toNat n
  rw [hzero] at hn
  change 0 = _ at hn
  omega

/-- The first seventeen bytes of an SD datagram with the given Session and flags. -/
def sdDatagramHead (session : UInt16) (flags : UInt8) : Buffer :=
  .bytes ([0xFF, 0xFF, 0x81, 0x00, 0, 0, 0, 0x30, 0, 0] ++ putBe16 session ++ [1, 1, 2, 0, flags])

/-- Two draws reported in the other order, with a chosen Session on another stream and a datagram
that is not SD in between. -/
def reorderedReports : List SdCall :=
  [.nextSdSession (1, 2), .nextSdSession (1, 2), .noteSdDatagramSent (1, 2) (sdDatagramHead 2 0xC0),
    .noteSdDatagramSent (1, 3) (sdDatagramHead 9 0x40),
    .noteSdDatagramSent (1, 2) (.bytes (List.replicate 20 0)),
    .noteSdDatagramSent (1, 2) (sdDatagramHead 1 0xC0), .nextSdSession (1, 2)]

theorem draws_eq_reordered :
    ProperRun (1, 2) reorderedReports ∧
      draws (1, 2) reorderedReports = [⟨1, true⟩, ⟨2, true⟩, ⟨3, true⟩] := by
  have hrun : ProperRun (1, 2) reorderedReports := by decide +kernel
  refine ⟨hrun, ?_⟩
  rw [(draws_eq (1, 2) reorderedReports hrun).1]
  decide

/-! ## A Session the sender chose -/

/-- What the stream is to hand out after a chosen Session went out. -/
def SdSession.successor (sent : SdSession) : SdSession :=
  if sent.sessionId = 0xFFFF then ⟨kSdSessionFirst, false⟩ else ⟨sent.sessionId + 1, sent.reboot⟩

/-- A Session that is none of the remembered draws moves the stream. -/
theorem draw_note_of_not_mem {s : Stream} {sent : SdSession} (h : sent.sessionId ∉ s.outstanding) :
    (s.note sent).draw.1 = sent.successor := by
  rw [Stream.note, if_neg h, Stream.draw, SdSession.successor, advancePast]
  split <;> rfl

/-- A Session equal to a remembered draw leaves the stream where it is. -/
theorem draw_note_of_mem {s : Stream} {sent : SdSession} (h : sent.sessionId ∈ s.outstanding) :
    (s.note sent).draw.1 = ⟨s.next, s.reboot⟩ := by
  rw [Stream.note, if_pos h, Stream.draw]

/-- **When a chosen Session moves the stream.** It does unless the stream remembers an unreported draw of
the same value and does not happen to stand right behind it. -/
theorem chosen_moves_iff (streams : Streams) (key : StreamKey) (datagram : Buffer) (sent : SdSession)
    (hsent : sdDatagramSession? datagram = some sent) :
    (nextSdSession (noteSdDatagramSent streams key datagram) key).1 = sent.successor ↔
      sent.sessionId ∉ (streams key).outstanding ∨
        ⟨(streams key).next, (streams key).reboot⟩ = sent.successor := by
  have hdraw : (nextSdSession (noteSdDatagramSent streams key datagram) key).1 =
      ((streams key).note sent).draw.1 := by
    simp only [nextSdSession, noteSdDatagramSent, hsent, Function.update_self]
  rw [hdraw]
  by_cases hmem : sent.sessionId ∈ (streams key).outstanding
  · rw [draw_note_of_mem hmem]
    simp only [hmem, not_true_eq_false, false_or]
  · exact iff_of_true (draw_note_of_not_mem hmem) (.inl hmem)

/-- A Session chosen on a stream whose one draw went out. -/
theorem chosen_moves_iff_nine :
    (nextSdSession ([SdCall.nextSdSession (1, 2), .noteSdDatagramSent (1, 2) (sdDatagramHead 1 0xC0),
      .noteSdDatagramSent (1, 2) (sdDatagramHead 9 0x40)].foldl sdStep fun _ => {}) (1, 2)).1 =
        ⟨10, false⟩ := by
  have hmoves := (chosen_moves_iff
    ([SdCall.nextSdSession (1, 2), .noteSdDatagramSent (1, 2) (sdDatagramHead 1 0xC0)].foldl sdStep
      fun _ => {}) (1, 2) (sdDatagramHead 9 0x40) ⟨9, false⟩ (by decide +kernel)).2
    (.inl (by decide +kernel))
  exact hmoves

/-- The first draw is never sent and the second is. Then Session 1 is sent on purpose, as a reboot would
be announced; the stream takes it for the first draw and goes on with 3. -/
theorem chosen_not_moving :
    let streams := [SdCall.nextSdSession (1, 2), .nextSdSession (1, 2),
      .noteSdDatagramSent (1, 2) (sdDatagramHead 2 0xC0)].foldl sdStep fun _ => {}
    sdDatagramSession? (sdDatagramHead 1 0xC0) = some ⟨1, true⟩ ∧
      SdSession.successor ⟨1, true⟩ = ⟨2, true⟩ ∧
      (nextSdSession (noteSdDatagramSent streams (1, 2) (sdDatagramHead 1 0xC0)) (1, 2)).1 =
        ⟨3, true⟩ := by
  decide +kernel

end Tc8Harness.Stimulus
