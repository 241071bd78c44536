import Tc8Harness.Lib.Observe
import Tc8Harness.Lib.StreamFraming
import Tc8Harness.Dissect.FrameEnd

/-!
# SOME/IP messages of TCP flows

`SomeIpDispatcher::feed` over whole sequences of calls. `someIpParser` is `parseSomeIpHeader` as a
stream parser: the length field decides how much a message takes, and bytes that arrive later do not
change a message that is already whole. `feed_chunks` concludes that a flow's messages do not depend
on how its bytes were cut into segments. `isolated_iff` is about several flows at once: residual
bytes are kept under `flowKey`, a 64-bit mix of 96 bits of addresses and ports, so flows are isolated
exactly when no two of them collide under it.
-/

namespace Tc8Harness.Dissect

open Wire StreamFraming Observe

/-! ## The message parser -/

theorem readBe16_append {p : List UInt8} {off : Nat} (h : off + 2 ≤ p.length) (q : List UInt8) :
    readBe16 (p ++ q) off = readBe16 p off := by
  unfold readBe16 readBe
  rw [List.drop_append_of_le_length (by omega), List.take_append_of_le_length]
  rw [List.length_drop]
  omega

theorem readBe32_append {p : List UInt8} {off : Nat} (h : off + 4 ≤ p.length) (q : List UInt8) :
    readBe32 (p ++ q) off = readBe32 p off := by
  unfold readBe32 readBe
  rw [List.drop_append_of_le_length (by omega), List.take_append_of_le_length]
  rw [List.length_drop]
  omega

/-- A parsed message has its whole header and is whole. -/
theorem parseSomeIpHeader_size {data : List UInt8} {h : SomeIpHeader} {total : Nat}
    (hp : parseSomeIpHeader data = some (h, total)) : 16 ≤ total ∧ total ≤ data.length := by
  simp only [parseSomeIpHeader, Option.ite_none_left_eq_some, Option.some.injEq,
    Prod.mk.injEq] at hp
  obtain ⟨-, hlen, hfit, -, -, rfl⟩ := hp
  omega

/-- A message that is whole reads the same whatever follows it. -/
theorem parseSomeIpHeader_append {data : List UInt8} {h : SomeIpHeader} {total : Nat}
    (hp : parseSomeIpHeader data = some (h, total)) (more : List UInt8) :
    parseSomeIpHeader (data ++ more) = some (h, total) := by
  obtain ⟨h16, hle⟩ := parseSomeIpHeader_size hp
  have hbyte : ∀ i < 16, (data ++ more).getD i 0 = data.getD i 0 := by
    intro i hi
    simp only [List.getD_eq_getElem?_getD, List.getElem?_append_left (show i < data.length by omega)]
  have hlong : ∀ n ≤ data.length, ¬ (data ++ more).length < n := by
    intro n hn
    rw [List.length_append]
    omega
  simp only [parseSomeIpHeader, Option.ite_none_left_eq_some] at hp
  obtain ⟨hshort, hlen, hfit, hver, hres⟩ := hp
  have hword : readBe32 (data ++ more) 4 = readBe32 data 4 := readBe32_append (by omega) more
  unfold parseSomeIpHeader
  simp only [hword, hbyte _ (show 12 < 16 by decide)]
  rw [if_neg (hlong 8 (by omega)), if_neg hlen, if_neg (hlong _ (by omega)), if_neg hver, ← hres,
    readBe16_append (by omega), readBe16_append (by omega), readBe16_append (by omega),
    readBe16_append (by omega), hbyte 13 (by decide), hbyte 14 (by decide), hbyte 15 (by decide)]

/-- `parseSomeIpHeader` with the payload both walks cut out behind the header. -/
def someIpParser : Parser UInt8 (SomeIpHeader × List UInt8) where
  parse data := (parseSomeIpHeader data).map fun ht =>
    ((ht.1, (data.take ht.2).drop SomeIpHeader.kHeaderSize), ht.2)
  pos := by
    intro data m n h
    obtain ⟨ht, hp, heq⟩ := Option.map_eq_some_iff.1 h
    obtain ⟨-, rfl⟩ := Prod.mk.inj heq
    have := (parseSomeIpHeader_size hp).1
    omega
  le := by
    intro data m n h
    obtain ⟨ht, hp, heq⟩ := Option.map_eq_some_iff.1 h
    obtain ⟨-, rfl⟩ := Prod.mk.inj heq
    exact (parseSomeIpHeader_size hp).2
  stable := by
    intro data m n more h
    obtain ⟨ht, hp, heq⟩ := Option.map_eq_some_iff.1 h
    obtain ⟨rfl, rfl⟩ := Prod.mk.inj heq
    rw [parseSomeIpHeader_append hp more, Option.map_some,
      List.take_append_of_le_length (parseSomeIpHeader_size hp).2]

/-- The walk of both delivery paths is the parser's. -/
theorem splitMessages_eq (steps : Nat) (data : List UInt8) :
    splitMessages steps data = someIpParser.split steps data := by
  induction steps generalizing data with
  | zero => rfl
  | succ steps ih =>
    unfold splitMessages Parser.split
    cases hp : parseSomeIpHeader data with
    | none => simp [someIpParser, hp]
    | some ht => simp [someIpParser, hp, ih]

theorem splitMessages_frames (data : List UInt8) :
    splitMessages data.length data = someIpParser.frames data := splitMessages_eq _ _

theorem feedFrames_eq (t : Transport) (buf : List UInt8) :
    feedFrames t buf =
      ((someIpParser.frames buf).1.map fun m => makeFrame t m.1 m.2, (someIpParser.frames buf).2) := by
  rw [← splitMessages_frames]
  rfl

/-! ## The dispatcher over a sequence of calls -/

/-- The bytes kept for a flow; a flow never fed has none. -/
def Residuals.of (res : Residuals) (t : Transport) : List UInt8 := (res[flowKey t]?).getD []

/-- `SomeIpDispatcher::feed` with a listener that takes every frame: the frames emitted, and the
residuals left. -/
def Residuals.feed (res : Residuals) (t : Transport) (data : List UInt8) :
    List SomeIpFrame × Residuals :=
  let out := feedFrames t (res.of t ++ data)
  (out.1, res.insert (flowKey t) out.2)

def Residuals.step (res : Residuals) (call : Transport × List UInt8) : Residuals :=
  (res.feed call.1 call.2).2

def Residuals.run (res : Residuals) (calls : List (Transport × List UInt8)) : Residuals :=
  calls.foldl Residuals.step res

/-- The frames emitted over a sequence of calls. -/
def Residuals.emitted (res : Residuals) (calls : List (Transport × List UInt8)) :
    List SomeIpFrame :=
  observe Residuals.step (fun res call => (res.feed call.1 call.2).1) res calls

theorem Residuals.getElem?_step (res : Residuals) (call : Transport × List UInt8) (k : UInt64) :
    (res.step call)[k]? =
      if flowKey call.1 = k then some (someIpParser.frames (res.of call.1 ++ call.2)).2
      else res[k]? := by
  simp only [step, feed, feedFrames_eq, Std.TreeMap.getElem?_insert, Std.LawfulEqCmp.compare_eq_iff_eq]

/-- Only the flow that is fed changes its residual. -/
theorem Residuals.of_step_of_ne {res : Residuals} {call : Transport × List UInt8} {t : Transport}
    (h : flowKey call.1 ≠ flowKey t) : (res.step call).of t = res.of t := by
  rw [of, getElem?_step, if_neg h, of]

theorem Residuals.of_step_of_eq {res : Residuals} {call : Transport × List UInt8} {t : Transport}
    (h : flowKey call.1 = flowKey t) :
    (res.step call).of t = (someIpParser.frames (res.of t ++ call.2)).2 := by
  have hof : res.of call.1 = res.of t := by rw [of, of, h]
  rw [of, getElem?_step, if_pos h, hof]
  rfl

section Pipeline

variable {σ φ : Type} (env : Env σ φ)

private theorem callListener_ok {ev : CapturedEvent} {s s' : Pipeline σ φ}
    (h : callListener env ev s = (.ok (), s')) :
    s'.residuals = s.residuals ∧ s'.calls = s.calls ++ [.event ev none] := by
  unfold callListener at h
  rcases hout : env.listener s.consumer ev with ⟨consumer, threw⟩
  rw [hout] at h
  cases threw with
  | none =>
    obtain ⟨-, rfl⟩ := Prod.mk.inj h
    exact ⟨rfl, rfl⟩
  | some thrown => cases thrown <;> cases h

private theorem forM_callListener_ok {frames : List SomeIpFrame} {s s' : Pipeline σ φ}
    (h : frames.forM (fun f => callListener env (.someIp f)) s = (.ok (), s')) :
    s'.residuals = s.residuals ∧
      s'.calls = s.calls ++ frames.map fun f => .event (.someIp f) none := by
  induction frames generalizing s with
  | nil =>
    obtain ⟨-, rfl⟩ := Prod.mk.inj h
    simp
  | cons f frames ih =>
    change (callListener env (.someIp f) >>= fun _ =>
      frames.forM fun f => callListener env (.someIp f)) s = _ at h
    rw [bind_run] at h
    rcases hcall : callListener env (.someIp f) s with ⟨r, s₁⟩
    rw [hcall] at h
    cases r with
    | error e => cases h
    | ok u =>
      obtain ⟨hres₁, hcalls₁⟩ := callListener_ok env hcall
      obtain ⟨hres, hcalls⟩ := ih h
      refine ⟨hres.trans hres₁, ?_⟩
      rw [hcalls, hcalls₁, List.append_assoc, List.singleton_append, List.map_cons]

/-- One feed of the pipeline that returns hands on the frames of `Residuals.feed`, and keeps what that
keeps. -/
theorem feed_ok {t : Transport} {data : List UInt8} {s s' : Pipeline σ φ} {res : Residuals}
    (hsame : ∀ k : UInt64, s.residuals[k]? = res[k]?) (h : feed env t data s = (.ok (), s')) :
    (∀ k : UInt64, s'.residuals[k]? = (res.step (t, data))[k]?) ∧
      s'.calls = s.calls ++ (res.feed t data).1.map fun f => .event (.someIp f) none := by
  have hof : s.residuals.of t = res.of t := by rw [Residuals.of, Residuals.of, hsame]
  let out := feedFrames t (res.of t ++ data)
  let s₁ := { s with residuals := s.residuals.insert (flowKey t) (res.of t ++ data) }
  have hfeed : feed env t data s = ((out.1.forM fun f => callListener env (.someIp f)) >>= fun _ =>
      (modify fun s => { s with residuals := s.residuals.insert (flowKey t) out.2 } : M σ φ Unit)) s₁ := by
    simp only [out, s₁, ← hof]
    rfl
  rw [hfeed, bind_run] at h
  rcases hrun : out.1.forM (fun f => callListener env (.someIp f)) s₁ with ⟨r, s₂⟩
  rw [hrun] at h
  cases r with
  | error e => cases h
  | ok u =>
    obtain ⟨hres, hcalls⟩ := forM_callListener_ok env hrun
    obtain ⟨-, rfl⟩ := Prod.mk.inj h
    refine ⟨fun k => ?_, hcalls⟩
    simp only [hres, s₁, Residuals.step, Residuals.feed, Std.TreeMap.getElem?_insert, hsame]
    split <;> rfl

/-- **Feeds of the pipeline** that all return: what the listener takes over the whole run is what
`Residuals.emitted` says of it. -/
theorem feeds_ok {calls : List (Transport × List UInt8)} {s s' : Pipeline σ φ} {res : Residuals}
    (hsame : ∀ k : UInt64, s.residuals[k]? = res[k]?)
    (h : calls.forM (fun call => feed env call.1 call.2) s = (.ok (), s')) :
    (∀ k : UInt64, s'.residuals[k]? = (res.run calls)[k]?) ∧
      s'.calls = s.calls ++ (res.emitted calls).map fun f => .event (.someIp f) none := by
  induction calls generalizing s res with
  | nil =>
    obtain ⟨-, rfl⟩ := Prod.mk.inj h
    exact ⟨hsame, (List.append_nil _).symm⟩
  | cons call calls ih =>
    rw [show (call :: calls).forM (fun call => feed env call.1 call.2) s =
      (feed env call.1 call.2 >>= fun _ => calls.forM fun call => feed env call.1 call.2) s from rfl,
      bind_run] at h
    rcases hfeed : feed env call.1 call.2 s with ⟨r, s₁⟩
    rw [hfeed] at h
    cases r with
    | error e => cases h
    | ok u =>
      obtain ⟨hsame₁, hcalls₁⟩ := feed_ok env hsame hfeed
      obtain ⟨hlast, hcalls⟩ := ih hsame₁ h
      refine ⟨hlast, ?_⟩
      rw [hcalls, hcalls₁, List.append_assoc, ← List.map_append]
      rfl

end Pipeline

/-! ## One flow, cut anywhere -/

/-- A frame without its capture time: segments of a flow are captured at different times. -/
def SomeIpFrame.untimed (f : SomeIpFrame) : SomeIpFrame := { f with observedTsUs := 0 }

/-- The calls that feed the chunks of one flow, each captured at its own time. -/
def chunkCalls (t : Transport) (chunks : List (Int × List UInt8)) :
    List (Transport × List UInt8) :=
  chunks.map fun c => ({ t with observedTsUs := c.1 }, c.2)

theorem flowKey_timed (t : Transport) (ts : Int) :
    flowKey { t with observedTsUs := ts } = flowKey t := rfl

theorem untimed_feed (res : Residuals) (t : Transport) (ts : Int) (data : List UInt8) :
    (res.feed { t with observedTsUs := ts } data).1.map SomeIpFrame.untimed =
      (someIpParser.frames (res.of t ++ data)).1.map
        fun m => (makeFrame t m.1 m.2).untimed := by
  rw [Residuals.feed, feedFrames_eq, List.map_map]
  rfl

/-- Chunk by chunk, the dispatcher is the receiver that keeps its rest. -/
theorem chunkCalls_feedChunks (res : Residuals) (t : Transport) (chunks : List (Int × List UInt8)) :
    (res.emitted (chunkCalls t chunks)).map SomeIpFrame.untimed =
        (someIpParser.feedChunks (res.of t) (chunks.map Prod.snd)).1.map
          (fun m => (makeFrame t m.1 m.2).untimed) ∧
      (res.run (chunkCalls t chunks)).of t =
        (someIpParser.feedChunks (res.of t) (chunks.map Prod.snd)).2 := by
  induction chunks generalizing res with
  | nil => exact ⟨rfl, rfl⟩
  | cons c chunks ih =>
    have hof : (res.step ({ t with observedTsUs := c.1 }, c.2)).of t =
        (someIpParser.frames (res.of t ++ c.2)).2 := Residuals.of_step_of_eq (flowKey_timed t c.1)
    obtain ⟨hemit, hrest⟩ := ih (res.step ({ t with observedTsUs := c.1 }, c.2))
    rw [hof] at hemit hrest
    refine ⟨?_, hrest⟩
    change ((res.feed { t with observedTsUs := c.1 } c.2).1 ++
      (res.step ({ t with observedTsUs := c.1 }, c.2)).emitted (chunkCalls t chunks)).map _ = _
    rw [List.map_append, untimed_feed, hemit, List.map_cons, Parser.feedChunks, List.map_append]

/-- Feeding one flow leaves every other residual. -/
theorem run_chunkCalls_of_ne (res : Residuals) (t : Transport) (chunks : List (Int × List UInt8))
    {k : UInt64} (hk : flowKey t ≠ k) : (res.run (chunkCalls t chunks))[k]? = res[k]? := by
  induction chunks generalizing res with
  | nil => rfl
  | cons c chunks ih =>
    have hstep : (res.step ({ t with observedTsUs := c.1 }, c.2))[k]? = res[k]? := by
      rw [Residuals.getElem?_step]
      exact if_neg hk
    change ((res.step _).run (chunkCalls t chunks))[k]? = _
    rw [ih, hstep]

/-- **Framing does not depend on the segmentation.** On a flow with nothing pending, the chunks of a
byte string, captured at whatever times, give the frames that the whole string gives in one call, and
leave the same residual bytes, of this flow and of every other. -/
theorem feed_chunks (res : Residuals) (t : Transport) (chunks : List (Int × List UInt8)) (ts : Int)
    (hempty : res.of t = []) :
    let data := (chunks.map Prod.snd).flatten
    let whole := res.feed { t with observedTsUs := ts } data
    (res.emitted (chunkCalls t chunks)).map SomeIpFrame.untimed =
        whole.1.map SomeIpFrame.untimed ∧
      ∀ k : UInt64, ((res.run (chunkCalls t chunks))[k]?).getD [] = (whole.2[k]?).getD [] := by
  intro data whole
  have hchunks : someIpParser.feedChunks (res.of t) (chunks.map Prod.snd) =
      someIpParser.frames (res.of t ++ data) :=
    someIpParser.feedChunks_eq (by rw [hempty]; exact someIpParser.parse_nil) _
  obtain ⟨hemit, hrest⟩ := chunkCalls_feedChunks res t chunks
  rw [hchunks] at hemit hrest
  refine ⟨?_, fun k => ?_⟩
  · rw [hemit, untimed_feed]
  · have hwhole : whole.2[k]? =
        if flowKey t = k then some (someIpParser.frames (res.of t ++ data)).2 else res[k]? :=
      Residuals.getElem?_step res ({ t with observedTsUs := ts }, data) k
    rw [hwhole]
    split
    · next hk =>
      rw [← hk]
      exact hrest
    · next hk => rw [run_chunkCalls_of_ne res t chunks hk]

/-- A message and a half, cut inside the length field and again inside the payload. -/
theorem feed_chunks_straddled :
    let t : Transport := ⟨.tcp, 0xC0A8010A, 0xC0A80562, 49152, 34632, 0⟩
    let first : List UInt8 := [0x12, 0x34, 0x56, 0x78, 0, 0]
    let second : List UInt8 := [0, 10, 0, 1, 0, 2, 1, 1, 0, 0, 0xAA]
    let third : List UInt8 := [0xBB, 0x12, 0x34]
    let chunks : List (Int × List UInt8) := [(1, first), (2, second), (3, third)]
    let res : Residuals := ∅
    res.of t = [] ∧
      (res.emitted (chunkCalls t chunks)).length = 1 ∧
      (res.emitted (chunkCalls t chunks)).map SomeIpFrame.untimed =
        (res.feed { t with observedTsUs := 9 } (first ++ second ++ third)).1.map
          SomeIpFrame.untimed := by
  intro t first second third chunks res
  have hempty : res.of t = [] := by simp [res, Residuals.of]
  refine ⟨hempty, by decide +kernel, ?_⟩
  exact (feed_chunks res t chunks 9 hempty).1

/-! ## Several flows -/

/-- The addresses and ports that make a TCP flow. -/
def Transport.fourTuple (t : Transport) : UInt32 × UInt16 × UInt32 × UInt16 :=
  (t.srcIp, t.srcPort, t.dstIp, t.dstPort)

/-- The frames emitted by the calls on one flow, over a sequence of calls. -/
def Residuals.emittedFor (t : Transport) (res : Residuals)
    (calls : List (Transport × List UInt8)) : List SomeIpFrame :=
  observe Residuals.step
    (fun res call => if call.1.fourTuple = t.fourTuple then (res.feed call.1 call.2).1 else []) res
    calls

/-- Each call is on one of the flows, captured at whatever time. -/
def CallsOn (flows : Set Transport) (calls : List (Transport × List UInt8)) : Prop :=
  ∀ call ∈ calls, ∃ t ∈ flows, call.1 = { t with observedTsUs := call.1.observedTsUs }

/-- Flows that do not show in each other's frames and do not share a residual buffer. -/
structure Isolated (flows : Set Transport) : Prop where
  frames : ∀ calls, CallsOn flows calls → ∀ t ∈ flows,
    Residuals.emittedFor t ∅ calls =
      Residuals.emittedFor t ∅ (calls.filter fun call => call.1.fourTuple = t.fourTuple)
  buffers : ∀ a ∈ flows, ∀ b ∈ flows, a.fourTuple ≠ b.fourTuple →
    ∀ (res : Residuals) (data : List UInt8), (res.step (b, data)).of a = res.of a

/-- The 48 bits of an endpoint, and the protocol's bit, as `flowKey` mixes them. -/
def endpointBits (ip : UInt32) (port : UInt16) : UInt64 := (ip.toUInt64 <<< 16) ||| port.toUInt64

def Proto.bit : Proto → UInt64
  | .udp => 0
  | .tcp => (1 : UInt64) <<< 63

/-- The scaled destinations differ in exactly the bits in which the sources and the protocols do. -/
def Transport.Collides (a b : Transport) : Prop :=
  (endpointBits a.srcIp a.srcPort ^^^ endpointBits b.srcIp b.srcPort) ^^^
      (a.proto.bit ^^^ b.proto.bit) =
    (endpointBits a.dstIp a.dstPort * 0x9e3779b97f4a7c15) ^^^
      (endpointBits b.dstIp b.dstPort * 0x9e3779b97f4a7c15)

instance (a b : Transport) : Decidable (a.Collides b) := inferInstanceAs (Decidable (_ = _))

theorem flowKey_eq_mix (t : Transport) :
    flowKey t = endpointBits t.srcIp t.srcPort ^^^
      (endpointBits t.dstIp t.dstPort * 0x9e3779b97f4a7c15) ^^^ t.proto.bit := by
  unfold flowKey
  cases t.proto <;> rfl

theorem flowKey_eq_iff (a b : Transport) : flowKey a = flowKey b ↔ a.Collides b := by
  have hxor : flowKey a ^^^ flowKey b =
      ((endpointBits a.srcIp a.srcPort ^^^ endpointBits b.srcIp b.srcPort) ^^^
        (a.proto.bit ^^^ b.proto.bit)) ^^^
      ((endpointBits a.dstIp a.dstPort * 0x9e3779b97f4a7c15) ^^^
        (endpointBits b.dstIp b.dstPort * 0x9e3779b97f4a7c15)) := by
    rw [flowKey_eq_mix, flowKey_eq_mix]
    ac_rfl
  rw [← UInt64.xor_eq_zero_iff, hxor, UInt64.xor_eq_zero_iff]
  rfl

/-- Alone with its flow: the second dispatcher keeps the same bytes for it. -/
private theorem isolated_frames {flows : Set Transport} (hinj : Set.InjOn Transport.fourTuple flows)
    (hapart : ∀ a ∈ flows, ∀ b ∈ flows, a ≠ b → ¬ a.Collides b)
    {calls : List (Transport × List UInt8)} (hon : CallsOn flows calls) {t : Transport}
    (ht : t ∈ flows) :
    Residuals.emittedFor t ∅ calls =
      Residuals.emittedFor t ∅ (calls.filter fun call => call.1.fourTuple = t.fourTuple) := by
  have hkey : ∀ call ∈ calls, (flowKey call.1 = flowKey t ↔ call.1.fourTuple = t.fourTuple) := by
    intro call hcall
    obtain ⟨u, hu, heq⟩ := hon call hcall
    have hkeyu : flowKey call.1 = flowKey u := by rw [heq]; rfl
    have htupleu : call.1.fourTuple = u.fourTuple := by rw [heq]; rfl
    rw [hkeyu, htupleu, flowKey_eq_iff]
    constructor
    · intro hcol
      by_contra hne
      exact hapart u hu t ht (fun h => hne (by rw [h])) hcol
    · intro htuple
      rw [hinj hu ht htuple]
      exact (flowKey_eq_iff t t).1 rfl
  have hcalls : Along Residuals.step (fun _ call => call ∈ calls) ∅ calls := by
    intro before call after heq
    rw [heq]
    simp
  refine observe_filter (R := fun res alone => res.of t = alone.of t) ?_ ?_ rfl hcalls
  · intro res alone call hof hcall hkeep
    have htuple : call.1.fourTuple = t.fourTuple := by simpa using hkeep
    have hk := (hkey call hcall).2 htuple
    have hofc : res.of call.1 = alone.of call.1 := by
      rw [Residuals.of, Residuals.of, hk]
      exact hof
    refine ⟨?_, ?_⟩
    · simp only [if_pos htuple, Residuals.feed, hofc]
    · rw [Residuals.of_step_of_eq hk, Residuals.of_step_of_eq hk, hof]
  · intro res alone call hof hcall hskip
    have htuple : call.1.fourTuple ≠ t.fourTuple := by simpa using hskip
    have hk : flowKey call.1 ≠ flowKey t := fun h => htuple ((hkey call hcall).1 h)
    exact ⟨if_neg htuple, by rw [Residuals.of_step_of_ne hk, hof]⟩

/-- A message cut in the middle: neither half is one. -/
private theorem exists_halves : ∃ first second : List UInt8,
    (someIpParser.frames first).2 = first ∧ (someIpParser.frames second).1.length = 0 ∧
      (someIpParser.frames (first ++ second)).1.length = 1 :=
  ⟨[0x12, 0x34, 0x56, 0x78, 0, 0, 0, 8], [0, 1, 0, 2, 1, 1, 0, 0], by decide +kernel⟩

/-- Half a message on one flow and the other half on a flow that collides with it make a frame that
neither flow carried. -/
theorem Isolated.not_collides {flows : Set Transport} (hiso : Isolated flows) {a b : Transport}
    (ha : a ∈ flows) (hb : b ∈ flows) (htuple : a.fourTuple ≠ b.fourTuple) : ¬ a.Collides b := by
  intro hcol
  obtain ⟨first, second, hfirst, hsecond, hboth⟩ := exists_halves
  have hon : CallsOn flows [(b, first), (a, second)] := by
    intro call hcall
    simp only [List.mem_cons, List.not_mem_nil, or_false] at hcall
    rcases hcall with rfl | rfl
    · exact ⟨b, hb, rfl⟩
    · exact ⟨a, ha, rfl⟩
  have hkey : flowKey (b, first).1 = flowKey a := ((flowKey_eq_iff a b).2 hcol).symm
  have hnone : (∅ : Residuals).of a = [] := by simp [Residuals.of]
  have hkept : (Residuals.step ∅ (b, first)).of a = first := by
    rw [Residuals.of_step_of_eq hkey, hnone]
    exact hfirst
  have hfeed : ∀ res : Residuals, (res.feed a second).1.length =
      (someIpParser.frames (res.of a ++ second)).1.length := by
    intro res
    rw [Residuals.feed, feedFrames_eq, List.length_map]
  have hfilter : [(b, first), (a, second)].filter (fun call => call.1.fourTuple = a.fourTuple) =
      [(a, second)] := by
    simp [Ne.symm htuple]
  have hlen := congrArg List.length (hiso.frames _ hon a ha)
  rw [hfilter] at hlen
  simp only [Residuals.emittedFor, observe, Ne.symm htuple, if_false, if_true, List.nil_append,
    List.append_nil] at hlen
  rw [hfeed, hfeed, hkept, hnone, hboth] at hlen
  exact absurd (hlen.trans hsecond) (by decide)

/-- **When flows are isolated.** Flows with pairwise distinct addresses and ports are isolated, over
every interleaving of their segments, exactly when no two of them collide under the mix. -/
theorem isolated_iff (flows : Set Transport) (hinj : Set.InjOn Transport.fourTuple flows) :
    Isolated flows ↔ ∀ a ∈ flows, ∀ b ∈ flows, a ≠ b → ¬ a.Collides b := by
  constructor
  · intro hiso a ha b hb hne hcol
    have htuple : a.fourTuple ≠ b.fourTuple := fun h => hne (hinj ha hb h)
    exact hiso.not_collides ha hb htuple hcol
  · intro hapart
    refine ⟨fun calls hon t ht => isolated_frames hinj hapart hon ht, ?_⟩
    intro a ha b hb htuple res data
    apply Residuals.of_step_of_ne
    intro hkey
    exact hapart a ha b hb (fun h => htuple (by rw [h])) ((flowKey_eq_iff a b).1 hkey.symm)

/-- Two clients of one server are isolated. -/
theorem isolated_two_clients :
    let a : Transport := ⟨.tcp, 0xC0A8010A, 0xC0A80001, 49152, 30501, 0⟩
    let b : Transport := ⟨.tcp, 0xC0A8010B, 0xC0A80001, 49152, 30501, 0⟩
    Set.InjOn Transport.fourTuple {a, b} ∧ Isolated {a, b} := by
  intro a b
  have hinj : Set.InjOn Transport.fourTuple {a, b} := by
    intro x hx y hy h
    rcases hx with rfl | rfl <;> rcases hy with rfl | rfl
    · rfl
    · revert h; decide
    · revert h; decide
    · rfl
  refine ⟨hinj, (isolated_iff _ hinj).2 ?_⟩
  intro x hx y hy hne
  rcases hx with rfl | rfl <;> rcases hy with rfl | rfl
  · exact absurd rfl hne
  · decide
  · decide
  · exact absurd rfl hne

/-- Two flows of one private network whose residual bytes are kept under one key:
192.168.1.10:49152 to 192.168.5.98:34632, and 192.168.6.3:50101 to 192.168.182.123:44073. -/
theorem not_isolated_colliding_flows :
    let a : Transport := ⟨.tcp, 0xC0A8010A, 0xC0A80562, 49152, 34632, 0⟩
    let b : Transport := ⟨.tcp, 0xC0A80603, 0xC0A8B67B, 50101, 44073, 0⟩
    Set.InjOn Transport.fourTuple {a, b} ∧ ¬ Isolated {a, b} := by
  intro a b
  refine ⟨?_, ?_⟩
  · intro x hx y hy h
    rcases hx with rfl | rfl <;> rcases hy with rfl | rfl
    · rfl
    · revert h; decide
    · revert h; decide
    · rfl
  · intro hiso
    exact hiso.not_collides (a := a) (b := b) (.inl rfl) (.inr rfl) (by decide) (by decide)

end Tc8Harness.Dissect
