import Tc8Harness.Dissect.Framing

/-!
# Messages handed on again

`SomeIpDispatcher::feed` keeps a flow's bytes until every message in them was taken. When the listener
throws, the exception leaves `feed` before the erase, and the next bytes of the flow find the messages
still in the buffer. `handed_nodup_iff` says that this is the only way a message is handed on twice: a
run repeats none exactly when no flow is fed whose buffer starts with a whole message. A message is
told apart from an equal one by where it starts in its flow's bytes, so the runs carry these bytes and
the starts along (`Traced`).
-/

namespace Tc8Harness.Dissect

open StreamFraming Observe

section

variable {σ φ : Type} (env : Env σ φ)

/-! ## One call -/

theorem residuals_callListener (ev : CapturedEvent) (s : Pipeline σ φ) :
    (callListener env ev s).2.residuals = s.residuals := by
  unfold callListener
  rcases env.listener s.consumer ev with ⟨consumer, threw⟩
  cases threw with
  | none => rfl
  | some thrown => cases thrown <;> rfl

/-- The listener takes all the frames, or some of them up to the one it throws on. -/
theorem forM_callListener_run (frames : List SomeIpFrame) (s : Pipeline σ φ) :
    let out := frames.forM (fun f => callListener env (.someIp f)) s
    out.2.residuals = s.residuals ∧
      ((out.1 = .ok () ∧ out.2.calls.length = s.calls.length + frames.length) ∨
        (∃ e, out.1 = .error e) ∧
          ∃ n, 0 < n ∧ n ≤ frames.length ∧ out.2.calls.length = s.calls.length + n) := by
  induction frames generalizing s with
  | nil => exact ⟨rfl, .inl ⟨rfl, rfl⟩⟩
  | cons f frames ih =>
    have hres := residuals_callListener env (.someIp f) s
    obtain ⟨-, t, hcalls, -⟩ := callListener_run env (.someIp f) s
    have hone : (callListener env (.someIp f) s).2.calls.length = s.calls.length + 1 := by
      rw [hcalls, List.length_append, List.length_singleton]
    have hcons : (f :: frames).forM (fun f => callListener env (.someIp f)) s =
        (callListener env (.someIp f) >>= fun _ =>
          frames.forM fun f => callListener env (.someIp f)) s := rfl
    dsimp only
    rw [hcons, bind_run]
    rcases hcall : callListener env (.someIp f) s with ⟨r, s₁⟩
    rw [hcall] at hres hone
    cases r with
    | error e => exact ⟨hres, .inr ⟨⟨e, rfl⟩, 1, Nat.one_pos, Nat.le_add_left _ _, hone⟩⟩
    | ok u =>
      obtain ⟨hres', hrun⟩ := ih s₁
      refine ⟨hres'.trans hres, ?_⟩
      rcases hrun with ⟨hok, hlen⟩ | ⟨hthrew, n, hpos, hle, hlen⟩
      · exact .inl ⟨hok, by rw [hlen, hone, List.length_cons]; omega⟩
      · refine .inr ⟨hthrew, n + 1, Nat.succ_pos n, Nat.succ_le_succ hle, ?_⟩
        rw [hlen, hone]
        omega

/-- What a feed leaves of its flow: what no message starts, or, when the listener threw, all bytes. -/
inductive Fed (s : Pipeline σ φ) (out : Except Fault Unit × Pipeline σ φ) (t : Transport)
    (buf : List UInt8) : Prop where
  | taken (hok : out.1 = .ok ()) (hres : out.2.residuals[flowKey t]? = some (someIpParser.frames buf).2)
      (hcalls : out.2.calls.length = s.calls.length + (someIpParser.frames buf).1.length)
  | threw (n : Nat) (herror : out.1 ≠ .ok ()) (hpos : 0 < n) (hle : n ≤ (someIpParser.frames buf).1.length)
      (hres : out.2.residuals[flowKey t]? = some buf) (hcalls : out.2.calls.length = s.calls.length + n)

theorem feed_run (t : Transport) (data : List UInt8) (s : Pipeline σ φ) :
    Fed s (feed env t data s) t (s.residuals.of t ++ data) ∧
      ∀ k, k ≠ flowKey t → (feed env t data s).2.residuals[k]? = s.residuals[k]? := by
  let buf := s.residuals.of t ++ data
  let s₁ := { s with residuals := s.residuals.insert (flowKey t) buf }
  let out := feedFrames t buf
  have hlen : out.1.length = (someIpParser.frames buf).1.length := by
    simp only [out, feedFrames_eq, List.length_map]
  have hrest : out.2 = (someIpParser.frames buf).2 := by
    simp only [out, feedFrames_eq]
  have hfeed : feed env t data s = ((out.1.forM fun f => callListener env (.someIp f)) >>= fun _ =>
      (modify fun s => { s with residuals := s.residuals.insert (flowKey t) out.2 } : M σ φ Unit)) s₁ :=
    rfl
  obtain ⟨hres, hrun⟩ := forM_callListener_run env out.1 s₁
  rw [hfeed, bind_run]
  rcases hforM : out.1.forM (fun f => callListener env (.someIp f)) s₁ with ⟨r, s₂⟩
  rw [hforM] at hres hrun
  dsimp only at hres hrun
  rcases hrun with ⟨rfl, hcalls⟩ | ⟨⟨e, rfl⟩, n, hpos, hle, hcalls⟩
  · refine ⟨.taken rfl ?_ ?_, fun k hk => ?_⟩
    · change (s₂.residuals.insert (flowKey t) out.2)[flowKey t]? = _
      rw [Std.TreeMap.getElem?_insert_self, hrest]
    · rw [← hlen]
      exact hcalls
    · change (s₂.residuals.insert (flowKey t) out.2)[k]? = _
      rw [hres, Std.TreeMap.getElem?_insert, if_neg (by simpa using hk.symm),
        Std.TreeMap.getElem?_insert, if_neg (by simpa using hk.symm)]
  · refine ⟨.threw n (by rintro ⟨⟩) hpos (by rwa [← hlen]) ?_ hcalls, fun k hk => ?_⟩
    · change s₂.residuals[flowKey t]? = _
      rw [hres, Std.TreeMap.getElem?_insert_self]
    · change s₂.residuals[k]? = _
      rw [hres, Std.TreeMap.getElem?_insert, if_neg (by simpa using hk.symm)]

/-! ## A run -/

/-- The dispatcher with all bytes its flows were fed and the messages handed on, each by its flow and
where it starts in the flow's bytes. -/
structure Traced (σ φ : Type) where
  pipeline : Pipeline σ φ
  stream : UInt64 → List UInt8 := fun _ => []
  handed : List (UInt64 × Nat) := []

namespace Traced

def residual (s : Traced σ φ) (k : UInt64) : List UInt8 := (s.pipeline.residuals[k]?).getD []

/-- Where the kept bytes start in the flow's. -/
def base (s : Traced σ φ) (k : UInt64) : Nat := (s.stream k).length - (s.residual k).length

/-- One call of `feed`, whether it returns or throws. -/
def feedStep (s : Traced σ φ) (call : Transport × List UInt8) : Traced σ φ :=
  let k := flowKey call.1
  let after := (feed env call.1 call.2 s.pipeline).2
  let starts := someIpParser.starts (s.base k) (s.residual k ++ call.2)
  { pipeline := after
    stream := Function.update s.stream k (s.stream k ++ call.2)
    handed := s.handed ++
      (starts.take (after.calls.length - s.pipeline.calls.length)).map fun q => (k, q) }

def run (s : Traced σ φ) (calls : List (Transport × List UInt8)) : Traced σ φ :=
  calls.foldl (feedStep env) s

/-- The flow's buffer does not start with a whole message. -/
def Clean (s : Traced σ φ) (call : Transport × List UInt8) : Prop :=
  parseSomeIpHeader (s.residual (flowKey call.1)) = none

instance (s : Traced σ φ) (call : Transport × List UInt8) : Decidable (s.Clean call) :=
  inferInstanceAs (Decidable (_ = none))

/-- The record of a run is true to it: what is kept of a flow is the end of what it was fed, every
call of the listener is recorded, a recorded start is one, and a whole message that is still at the
front of a buffer has been handed on. -/
structure Consistent (s : Traced σ φ) : Prop where
  suffix : ∀ k, s.residual k <:+ s.stream k
  logged : s.handed.length = s.pipeline.calls.length
  parses : ∀ h ∈ s.handed, (someIpParser.parse ((s.stream h.1).drop h.2)).isSome
  pending : ∀ k, someIpParser.parse (s.residual k) ≠ none → (k, s.base k) ∈ s.handed

section Step

variable {s : Traced σ φ} {call : Transport × List UInt8}

/-- What one call does to its flow, with the number of messages it hands on. -/
inductive Stepped (s s' : Traced σ φ) (call : Transport × List UInt8) (n : Nat) : Prop where
  | taken
      (hres : s'.residual (flowKey call.1) =
        (someIpParser.frames (s.residual (flowKey call.1) ++ call.2)).2)
      (hn : n = (someIpParser.frames (s.residual (flowKey call.1) ++ call.2)).1.length)
  | threw (hres : s'.residual (flowKey call.1) = s.residual (flowKey call.1) ++ call.2) (hpos : 0 < n)
      (hle : n ≤ (someIpParser.frames (s.residual (flowKey call.1) ++ call.2)).1.length)

theorem feedStep_cases (s : Traced σ φ) (call : Transport × List UInt8) :
    ∃ n, Stepped s (s.feedStep env call) call n ∧
      (s.feedStep env call).pipeline.calls.length = s.pipeline.calls.length + n ∧
      (s.feedStep env call).handed = s.handed ++
        ((someIpParser.starts (s.base (flowKey call.1))
          (s.residual (flowKey call.1) ++ call.2)).take n).map fun q => (flowKey call.1, q) := by
  have hnew : ∀ n, (s.feedStep env call).pipeline.calls.length = s.pipeline.calls.length + n →
      (s.feedStep env call).handed = s.handed ++
        ((someIpParser.starts (s.base (flowKey call.1))
          (s.residual (flowKey call.1) ++ call.2)).take n).map fun q => (flowKey call.1, q) := by
    intro n hcalls
    have hn : (feed env call.1 call.2 s.pipeline).2.calls.length - s.pipeline.calls.length = n := by
      change (s.feedStep env call).pipeline.calls.length - _ = n
      omega
    rw [← hn]
    rfl
  rcases (feed_run env call.1 call.2 s.pipeline).1 with
    ⟨-, hres, hcalls⟩ | ⟨n, -, hpos, hle, hres, hcalls⟩
  · exact ⟨_, .taken (congrArg (Option.getD · []) hres) rfl, hcalls, hnew _ hcalls⟩
  · exact ⟨n, .threw (congrArg (Option.getD · []) hres) hpos hle, hcalls, hnew n hcalls⟩

theorem residual_feedStep_of_ne {k : UInt64} (hk : k ≠ flowKey call.1) :
    (s.feedStep env call).residual k = s.residual k := by
  rw [residual, residual]
  exact congrArg (Option.getD · []) ((feed_run env call.1 call.2 s.pipeline).2 k hk)

theorem stream_feedStep_of_ne {k : UInt64} (hk : k ≠ flowKey call.1) :
    (s.feedStep env call).stream k = s.stream k := Function.update_of_ne hk _ _

theorem stream_feedStep_self :
    (s.feedStep env call).stream (flowKey call.1) = s.stream (flowKey call.1) ++ call.2 :=
  Function.update_self _ _ _

theorem base_feedStep_of_ne {k : UInt64} (hk : k ≠ flowKey call.1) :
    (s.feedStep env call).base k = s.base k := by
  rw [base, base, stream_feedStep_of_ne env hk, residual_feedStep_of_ne env hk]

/-- The kept bytes with the new ones stand in the stream where the kept bytes did. -/
theorem drop_stream (hsuffix : s.residual (flowKey call.1) <:+ s.stream (flowKey call.1)) :
    ((s.feedStep env call).stream (flowKey call.1)).drop (s.base (flowKey call.1)) =
      s.residual (flowKey call.1) ++ call.2 := by
  rw [stream_feedStep_self, base, List.drop_append_of_le_length (Nat.sub_le _ _),
    ← List.suffix_iff_eq_drop.1 hsuffix]

/-- When the flow's buffer stays whole, it stays where it was. -/
theorem base_feedStep_threw
    (hres : (s.feedStep env call).residual (flowKey call.1) = s.residual (flowKey call.1) ++ call.2) :
    (s.feedStep env call).base (flowKey call.1) = s.base (flowKey call.1) := by
  rw [base, base, hres, stream_feedStep_self, List.length_append, List.length_append]
  omega

/-- Where a call hands messages on from. -/
theorem mem_new (hsuffix : s.residual (flowKey call.1) <:+ s.stream (flowKey call.1)) {n : Nat}
    {h : UInt64 × Nat}
    (hh : h ∈ ((someIpParser.starts (s.base (flowKey call.1))
      (s.residual (flowKey call.1) ++ call.2)).take n).map fun q => (flowKey call.1, q)) :
    h.1 = flowKey call.1 ∧ s.base (flowKey call.1) ≤ h.2 ∧
      h.2 + (someIpParser.frames (s.residual (flowKey call.1) ++ call.2)).2.length <
        ((s.feedStep env call).stream (flowKey call.1)).length ∧
      (someIpParser.parse (((s.feedStep env call).stream (flowKey call.1)).drop h.2)).isSome := by
  obtain ⟨q, hq, rfl⟩ := List.mem_map.1 hh
  obtain ⟨hfrom, hto, hsome⟩ := someIpParser.mem_starts (List.mem_of_mem_take hq)
  have hlen : (s.residual (flowKey call.1)).length ≤ (s.stream (flowKey call.1)).length :=
    hsuffix.length_le
  rw [← drop_stream env hsuffix, List.drop_drop, Nat.add_sub_cancel' hfrom] at hsome
  refine ⟨rfl, hfrom, ?_, hsome⟩
  rw [stream_feedStep_self, List.length_append]
  rw [base, List.length_append] at hto
  omega

namespace Consistent

theorem start (consumer : σ) (follower : φ) :
    Consistent ({ pipeline := ⟨consumer, follower, {}, 0, ∅, [], 0, 0, []⟩ } : Traced σ φ) := by
  refine ⟨fun k => ?_, rfl, nofun, fun k hparse => absurd ?_ hparse⟩
  · simp [residual]
  · simpa [residual] using someIpParser.parse_nil

theorem feedStep (hs : Consistent s) (call : Transport × List UInt8) :
    Consistent (s.feedStep env call) := by
  obtain ⟨n, hstep, hcalls, hhanded⟩ := feedStep_cases env s call
  have hsuffix := hs.suffix (flowKey call.1)
  constructor
  case suffix =>
    intro k
    by_cases hk : k = flowKey call.1
    · subst hk
      have hbuf : s.residual (flowKey call.1) ++ call.2 <:+ s.stream (flowKey call.1) ++ call.2 := by
        obtain ⟨front, hfront⟩ := hsuffix
        exact ⟨front, by rw [← List.append_assoc, hfront]⟩
      rw [stream_feedStep_self]
      cases hstep with
      | taken hres hn =>
        rw [hres]
        exact (someIpParser.frames_snd_suffix _).trans hbuf
      | threw hres hpos hle => rwa [hres]
    · rw [residual_feedStep_of_ne env hk, stream_feedStep_of_ne env hk]
      exact hs.suffix k
  case logged =>
    have hle : n ≤ (someIpParser.frames (s.residual (flowKey call.1) ++ call.2)).1.length := by
      cases hstep with
      | taken hres hn => exact Nat.le_of_eq hn
      | threw hres hpos hle => exact hle
    rw [hhanded, hcalls, List.length_append, List.length_map, List.length_take,
      someIpParser.length_starts, Nat.min_eq_left hle, hs.logged]
  case parses =>
    intro h hh
    rw [hhanded] at hh
    rcases List.mem_append.1 hh with hold | hnew
    · have hsome := hs.parses h hold
      by_cases hk : h.1 = flowKey call.1
      · -- What parses is not empty, so the start lies in the old bytes.
        obtain ⟨mn, hparse⟩ := Option.isSome_iff_exists.1 hsome
        have hin : h.2 ≤ (s.stream h.1).length := by
          by_contra hpast
          rw [List.drop_eq_nil_of_le (by omega), someIpParser.parse_nil] at hparse
          cases hparse
        rw [hk] at hin hparse ⊢
        rw [stream_feedStep_self, List.drop_append_of_le_length hin, someIpParser.stable call.2 hparse]
        rfl
      · rwa [stream_feedStep_of_ne env hk]
    · obtain ⟨hkey, -, -, hsome⟩ := mem_new env hsuffix hnew
      rwa [hkey]
  case pending =>
    intro k hparse
    rw [hhanded]
    by_cases hk : k = flowKey call.1
    · subst hk
      cases hstep with
      | taken hres hn =>
        rw [hres, someIpParser.parse_frames_snd] at hparse
        exact absurd rfl hparse
      | threw hres hpos hle =>
        rw [hres] at hparse
        obtain ⟨⟨m, size⟩, hsome⟩ := Option.ne_none_iff_exists'.1 hparse
        refine List.mem_append_right _ (List.mem_map.2 ⟨s.base (flowKey call.1), ?_, ?_⟩)
        · rw [someIpParser.starts_of_some hsome]
          obtain ⟨n, rfl⟩ : ∃ n', n = n' + 1 := ⟨n - 1, by omega⟩
          exact List.mem_cons_self
        · rw [base_feedStep_threw env hres]
    · rw [residual_feedStep_of_ne env hk] at hparse
      rw [base_feedStep_of_ne env hk]
      exact List.mem_append_left _ (hs.pending k hparse)

end Consistent

theorem clean_iff : s.Clean call ↔ someIpParser.parse (s.residual (flowKey call.1)) = none :=
  Option.map_eq_none_iff.symm

/-- No message was handed on twice, and the buffers without a whole message start behind all that were
handed on. -/
structure NoRepeat (s : Traced σ φ) : Prop where
  nodup : s.handed.Nodup
  behind : ∀ h ∈ s.handed, someIpParser.parse (s.residual h.1) = none → h.2 < s.base h.1

theorem NoRepeat.feedStep (hs : Consistent s) (h : NoRepeat s) (hclean : s.Clean call) :
    NoRepeat (s.feedStep env call) := by
  obtain ⟨n, hstep, -, hhanded⟩ := feedStep_cases env s call
  have hsuffix := hs.suffix (flowKey call.1)
  have hbefore : ∀ d ∈ s.handed, d.1 = flowKey call.1 → d.2 < s.base (flowKey call.1) := by
    intro d hd hkey
    have hlt := h.behind d hd
    rw [hkey] at hlt
    exact hlt (clean_iff.1 hclean)
  constructor
  case nodup =>
    rw [hhanded, List.nodup_append]
    refine ⟨h.nodup, ?_, ?_⟩
    · have hpairwise := someIpParser.pairwise_starts (s.base (flowKey call.1))
        (s.residual (flowKey call.1) ++ call.2)
      have htake := (List.Nodup.sublist (List.take_sublist n _)
        (hpairwise.imp fun hlt => Nat.ne_of_lt hlt))
      exact htake.map fun q q' heq => (Prod.mk.inj heq).2
    · rintro d hd d' hd' rfl
      obtain ⟨hkey, hfrom, -, -⟩ := mem_new env hsuffix hd'
      have hlt := hbefore d hd hkey
      omega
  case behind =>
    intro d hd hnone
    rw [hhanded] at hd
    by_cases hkey : d.1 = flowKey call.1
    · rw [hkey] at hnone ⊢
      cases hstep with
      | taken hres hn =>
        have hrest := (someIpParser.frames_snd_suffix (s.residual (flowKey call.1) ++ call.2)).length_le
        rw [List.length_append] at hrest
        rw [base, hres, stream_feedStep_self, List.length_append]
        rcases List.mem_append.1 hd with hold | hnew
        · have hlt := hbefore d hold hkey
          rw [base] at hlt
          omega
        · obtain ⟨-, -, hto, -⟩ := mem_new env hsuffix hnew
          rw [stream_feedStep_self, List.length_append] at hto
          omega
      | threw hres hpos hle =>
        -- The listener threw on a message, so the whole buffer starts with one.
        rw [hres] at hnone
        rw [someIpParser.frames_of_none hnone] at hle
        exact absurd hpos (Nat.not_lt.2 hle)
    · rw [residual_feedStep_of_ne env hkey] at hnone
      rw [base_feedStep_of_ne env hkey]
      rcases List.mem_append.1 hd with hold | hnew
      · exact h.behind d hold hnone
      · exact absurd (mem_new env hsuffix hnew).1 hkey

/-- A flow fed while its buffer starts with a whole message hands that message on again. -/
theorem clean_of_nodup (hs : Consistent s) (h : (s.feedStep env call).handed.Nodup) : s.Clean call := by
  by_contra hdirty
  obtain ⟨⟨hdr, size⟩, hparse⟩ := Option.ne_none_iff_exists'.1 hdirty
  have hsome : someIpParser.parse (s.residual (flowKey call.1)) = some ((hdr,
      ((s.residual (flowKey call.1)).take size).drop SomeIpHeader.kHeaderSize), size) :=
    Option.map_eq_some_iff.2 ⟨(hdr, size), hparse, rfl⟩
  have hbuf := someIpParser.stable call.2 hsome
  obtain ⟨n, hstep, -, hhanded⟩ := feedStep_cases env s call
  have hpos : 0 < n := by
    cases hstep with
    | taken hres hn =>
      rw [hn, someIpParser.frames_of_some hbuf]
      exact Nat.succ_pos _
    | threw hres hpos hle => exact hpos
  obtain ⟨n, rfl⟩ : ∃ n', n = n' + 1 := ⟨n - 1, by omega⟩
  rw [hhanded, someIpParser.starts_of_some hbuf, List.take_succ_cons, List.map_cons,
    List.nodup_append] at h
  have hagain := hs.pending (flowKey call.1) (by rw [hsome]; exact Option.some_ne_none _)
  exact h.2.2 _ hagain _ List.mem_cons_self rfl

theorem residual_run_of_ne {k : UInt64} {calls : List (Transport × List UInt8)}
    (hk : ∀ call ∈ calls, k ≠ flowKey call.1) : (s.run env calls).residual k = s.residual k := by
  induction calls generalizing s with
  | nil => rfl
  | cons call calls ih =>
    have hrest : (s.run env (call :: calls)).residual k = (s.feedStep env call).residual k :=
      ih fun c hc => hk c (List.mem_cons_of_mem _ hc)
    rw [hrest, residual_feedStep_of_ne env (hk call List.mem_cons_self)]

/-- A flow's buffer starts with a whole message exactly when the listener threw out of the last call on the
flow. -/
theorem clean_iff_returned {early late : List (Transport × List UInt8)} {next : Transport × List UInt8}
    (hflow : flowKey next.1 = flowKey call.1) (hlate : ∀ c ∈ late, flowKey call.1 ≠ flowKey c.1) :
    (s.run env (early ++ call :: late)).Clean next ↔
      (feed env call.1 call.2 (s.run env early).pipeline).1 = .ok () := by
  have hrun : s.run env (early ++ call :: late) = ((s.run env early).feedStep env call).run env late :=
    List.foldl_append
  rw [clean_iff, hflow, hrun, residual_run_of_ne env hlate]
  rcases (feed_run env call.1 call.2 (s.run env early).pipeline).1 with
    ⟨hok, hres, -⟩ | ⟨n, herror, hpos, hle, hres, -⟩
  · refine iff_of_true ?_ hok
    rw [show ((s.run env early).feedStep env call).residual (flowKey call.1) = _ from
      congrArg (Option.getD · []) hres]
    exact someIpParser.parse_frames_snd _
  · refine iff_of_false (fun hnone => ?_) herror
    rw [show ((s.run env early).feedStep env call).residual (flowKey call.1) = _ from
      congrArg (Option.getD · []) hres] at hnone
    -- The listener threw on a message, so the bytes start with one.
    have hnone' : someIpParser.parse ((s.run env early).pipeline.residuals.of call.1 ++ call.2) = none :=
      hnone
    rw [someIpParser.frames_of_none hnone'] at hle
    exact absurd hpos (Nat.not_lt.2 hle)

/-- The buffer of a flow that was never fed starts with none. -/
theorem clean_of_unfed {next : Transport × List UInt8} {calls : List (Transport × List UInt8)}
    (hstart : s.residual (flowKey next.1) = []) (hunfed : ∀ c ∈ calls, flowKey next.1 ≠ flowKey c.1) :
    (s.run env calls).Clean next := by
  rw [clean_iff, residual_run_of_ne env hunfed, hstart]
  exact someIpParser.parse_nil

theorem handed_extends (s : Traced σ φ) (calls : List (Transport × List UInt8)) :
    s.handed <+: (s.run env calls).handed := by
  induction calls generalizing s with
  | nil => exact List.prefix_refl _
  | cons call calls ih =>
    obtain ⟨n, -, -, hhanded⟩ := feedStep_cases env s call
    have hstep : s.handed <+: (s.feedStep env call).handed := ⟨_, hhanded.symm⟩
    exact hstep.trans (ih (s.feedStep env call))

theorem run_nodup_iff (hs : Consistent s) (h : NoRepeat s) (calls : List (Transport × List UInt8)) :
    (s.run env calls).handed.Nodup ↔ Along (Traced.feedStep env) Clean s calls := by
  induction calls generalizing s with
  | nil => exact iff_of_true h.nodup along_nil
  | cons call calls ih =>
    constructor
    · intro hnodup
      have hone := hnodup.sublist (handed_extends env (s.feedStep env call) calls).sublist
      have hclean := clean_of_nodup env hs hone
      exact .cons hclean ((ih (hs.feedStep env call) (h.feedStep env hs hclean)).1 hnodup)
    · intro halong
      exact (ih (hs.feedStep env call) (h.feedStep env hs halong.head)).2 halong.tail

end Step

end Traced

/-- **When a message is handed on twice.** In a run of `feed` calls with any listener, each message of
each flow is handed to it at most once exactly when no flow is fed while its buffer starts with a whole
message, which it does after the listener threw out of the flow's last call. -/
theorem handed_nodup_iff (consumer : σ) (follower : φ) (calls : List (Transport × List UInt8)) :
    let s : Traced σ φ := { pipeline := ⟨consumer, follower, {}, 0, ∅, [], 0, 0, []⟩ }
    (s.run env calls).handed.Nodup ↔ Along (Traced.feedStep env) Traced.Clean s calls :=
  Traced.run_nodup_iff env (Traced.Consistent.start consumer follower)
    ⟨List.nodup_nil, nofun⟩ calls

end

/-- A case whose handler throws on the first message it is given and takes the later ones. -/
def throwsOnceEnv : Env Bool Unit where
  listener threw _ := (true, if threw then none else some (.std "no transition"))
  markerListener := none
  processPacket state _ := .done state

/-- Two empty messages in two segments of one flow. The handler throws on the first, gets it again with
the second segment, and then the second. -/
theorem handed_again :
    let t : Transport := ⟨.tcp, 0xC0A8010A, 0xC0A80562, 49152, 34632, 0⟩
    let message : List UInt8 := [0x12, 0x34, 0x56, 0x78, 0, 0, 0, 8, 0, 1, 0, 2, 1, 1, 0, 0]
    let s : Traced Bool Unit := { pipeline := ⟨false, (), {}, 0, ∅, [], 0, 0, []⟩ }
    let calls := [(t, message), (t, message)]
    (s.run throwsOnceEnv calls).handed = [(flowKey t, 0), (flowKey t, 0), (flowKey t, 16)] ∧
      ¬ (s.run throwsOnceEnv calls).handed.Nodup := by
  decide +kernel

end Tc8Harness.Dissect
