import Tc8Harness.Dissect.Pipeline

/-!
# How one frame ends

What `processFrame` can do with one frame, for every listener, marker handler and follower that may
throw on any call. A computation that only hands events on is `Quiet`: it leaves the counters alone,
stops at the first call that throws, and comes out as a consumer fault exactly then. `Dissects` adds
the one count a layer may leave at its end. `FrameEnd` lists the ends of a whole frame, and
`processFrame_end` is the step lemma every accounting result is read off.
-/

namespace Tc8Harness.Dissect

open Wire

def Call.threw : Call → Option Thrown
  | .event _ t => t
  | .marker _ t => t

def Call.isEvent : Call → Bool
  | .event _ _ => true
  | .marker _ _ => false

section

variable {σ φ : Type} {α β : Type}

/-! ## Computations that only hand events on -/

/-- How a quiet computation ends, given the calls it made. -/
def QuietEnd (new : List Call) : Except Fault α → Prop
  | .ok _ => ∀ c ∈ new, c.threw = none
  | .error (.consumer _) => ∃ c ∈ new, c.threw ≠ none
  | .error (.thrown _) => ∀ c ∈ new, c.threw = none

/-- Calls that returned may stand before those of a quiet end. -/
theorem QuietEnd.append {before new : List Call} {r : Except Fault α} (h : QuietEnd new r)
    (hbefore : ∀ c ∈ before, c.threw = none) : QuietEnd (before ++ new) r := by
  have hall : (∀ c ∈ new, c.threw = none) → ∀ c ∈ before ++ new, c.threw = none := by
    intro hnew c hc
    rcases List.mem_append.1 hc with hc | hc
    · exact hbefore c hc
    · exact hnew c hc
  match r, h with
  | .ok _, h => exact hall h
  | .error (.consumer _), ⟨c, hc, ht⟩ => exact ⟨c, List.mem_append_right _ hc, ht⟩
  | .error (.thrown _), h => exact hall h

/-- The counters stay, the calls made are events, and the end fits them. -/
def Quiet (m : M σ φ α) : Prop :=
  ∀ s : Pipeline σ φ, (m s).2.stats = s.stats ∧ ∃ new, (m s).2.calls = s.calls ++ new ∧
    (∀ c ∈ new, c.isEvent = true) ∧ QuietEnd new (m s).1

theorem Quiet.pure (a : α) : Quiet (Pure.pure a : M σ φ α) :=
  fun s => ⟨rfl, [], (List.append_nil _).symm, by simp, by
    intro c hc
    cases hc⟩

theorem Quiet.get : Quiet (MonadState.get : M σ φ (Pipeline σ φ)) :=
  fun s => ⟨rfl, [], (List.append_nil _).symm, by simp, by
    intro c hc
    cases hc⟩

theorem Quiet.modify {g : Pipeline σ φ → Pipeline σ φ}
    (hg : ∀ s, (g s).stats = s.stats ∧ (g s).calls = s.calls) :
    Quiet (MonadState.modifyGet fun s => ((), g s) : M σ φ Unit) :=
  fun s => ⟨(hg s).1, [], by rw [List.append_nil]; exact (hg s).2, by simp, by
    intro c hc
    cases hc⟩

theorem bind_run (m : M σ φ α) (k : α → M σ φ β) (s : Pipeline σ φ) :
    (m >>= k) s = match m s with
      | (.ok a, s') => k a s'
      | (.error e, s') => (.error e, s') := by
  change (match m s with | (r, s') => (ExceptT.bindCont k r : StateM (Pipeline σ φ) _) s') = _
  rcases m s with ⟨r, s'⟩
  cases r <;> rfl

theorem Quiet.bind {m : M σ φ α} {k : α → M σ φ β} (hm : Quiet m) (hk : ∀ a, Quiet (k a)) :
    Quiet (m >>= k) := by
  intro s
  obtain ⟨hstats, new, hcalls, hev, hend⟩ := hm s
  rw [bind_run]
  rcases hms : m s with ⟨r, s'⟩
  rw [hms] at hstats hcalls hend
  cases r with
  | error e => exact ⟨hstats, new, hcalls, hev, by cases e <;> exact hend⟩
  | ok a =>
    obtain ⟨hstats', new', hcalls', hev', hend'⟩ := hk a s'
    refine ⟨hstats'.trans hstats, new ++ new', ?_, ?_, ?_⟩
    · rw [hcalls', hcalls, List.append_assoc]
    · intro c hc
      rcases List.mem_append.1 hc with hc | hc
      · exact hev c hc
      · exact hev' c hc
    · exact hend'.append hend

theorem Quiet.forM {l : List α} {f : α → M σ φ Unit} (hf : ∀ a, Quiet (f a)) :
    Quiet (l.forM f) := by
  induction l with
  | nil => exact Quiet.pure ()
  | cons a l ih => exact (hf a).bind fun _ => ih

variable (env : Env σ φ)

/-- The one call of a listener, as it is recorded. -/
theorem callListener_run (ev : CapturedEvent) (s : Pipeline σ φ) :
    (callListener env ev s).2.stats = s.stats ∧
      ∃ t, (callListener env ev s).2.calls = s.calls ++ [.event ev t] ∧
        QuietEnd [.event ev t] (callListener env ev s).1 := by
  unfold callListener
  rcases env.listener s.consumer ev with ⟨consumer, threw⟩
  cases threw with
  | none => exact ⟨rfl, none, rfl, by intro c hc; rw [List.mem_singleton.1 hc]; rfl⟩
  | some t =>
    refine ⟨by cases t <;> rfl, some t, by cases t <;> rfl, ?_⟩
    cases t with
    | std what => exact ⟨_, List.mem_singleton_self _, by simp [Call.threw]⟩
    | other => exact ⟨_, List.mem_singleton_self _, by simp [Call.threw]⟩

theorem quiet_callListener (ev : CapturedEvent) : Quiet (callListener env ev) := by
  intro s
  obtain ⟨hstats, t, hcalls, hend⟩ := callListener_run env ev s
  exact ⟨hstats, _, hcalls, by simp [Call.isEvent], hend⟩

theorem quiet_deliver (t : Transport) (data : List UInt8) : Quiet (deliver env t data) :=
  Quiet.forM fun _ => quiet_callListener env _

theorem quiet_feed (t : Transport) (data : List UInt8) : Quiet (feed env t data) := by
  unfold feed
  refine Quiet.get.bind fun s => ?_
  refine Quiet.bind (Quiet.modify ?_) fun _ => ?_
  · exact fun _ => ⟨rfl, rfl⟩
  · refine (Quiet.forM fun _ => quiet_callListener env _).bind fun _ => Quiet.modify ?_
    exact fun _ => ⟨rfl, rfl⟩

theorem quiet_onStreamData (d : StreamData) : Quiet (onStreamData env d) := by
  unfold onStreamData
  split
  · exact Quiet.pure ()
  · exact Quiet.get.bind fun s => quiet_feed env _ _

/-- Whatever the follower does with its callbacks, it counts nothing. -/
theorem quiet_runFollower (run : FollowerRun φ) : Quiet (runFollower env run) := by
  induction run with
  | done state => exact Quiet.modify fun _ => ⟨rfl, rfl⟩
  | throws t state =>
    exact fun s => ⟨rfl, [], (List.append_nil _).symm, by simp, by simp [QuietEnd, runFollower]⟩
  | data d onThrow next ih =>
    intro s
    have hboth := (quiet_onStreamData env d).bind (fun _ => ih) s
    rw [bind_run] at hboth
    unfold runFollower
    rcases hos : onStreamData env d s with ⟨r, s'⟩
    rw [hos] at hboth
    cases r with
    | ok a => exact hboth
    | error e => exact hboth

theorem quiet_followTcp (ip : Ipv4Header) (tcp : TcpSegment) : Quiet (followTcp env ip tcp) :=
  Quiet.get.bind fun _ => quiet_runFollower env _

/-! ## The layers of one frame -/

/-- A computation that may also count its frame as undissectable, once and at its end. -/
def Dissects (bytes : List UInt8) (idx : Nat) (m : M σ φ Unit) : Prop :=
  ∀ s : Pipeline σ φ, ∃ new, (m s).2.calls = s.calls ++ new ∧ (∀ c ∈ new, c.isEvent = true) ∧
    (((m s).2.stats = s.stats ∧ QuietEnd new (m s).1) ∨
      ((m s).1 = .ok () ∧ (∀ c ∈ new, c.threw = none) ∧
        ∃ reason, (m s).2.stats = noteUndissectable env bytes idx reason s.stats))

variable {env} {bytes : List UInt8} {idx : Nat}

theorem Quiet.dissects {m : M σ φ Unit} (hm : Quiet m) : Dissects env bytes idx m := by
  intro s
  obtain ⟨hstats, new, hcalls, hev, hend⟩ := hm s
  exact ⟨new, hcalls, hev, .inl ⟨hstats, hend⟩⟩

theorem Dissects.note (reason : String) :
    Dissects env bytes idx (note env bytes idx reason : M σ φ Unit) :=
  fun s => ⟨[], (List.append_nil _).symm, by simp, .inr ⟨rfl, by simp, reason, rfl⟩⟩

theorem Quiet.bind_dissects {m : M σ φ α} {k : α → M σ φ Unit} (hm : Quiet m)
    (hk : ∀ a, Dissects env bytes idx (k a)) : Dissects env bytes idx (m >>= k) := by
  intro s
  obtain ⟨hstats, new, hcalls, hev, hend⟩ := hm s
  rw [bind_run]
  rcases hms : m s with ⟨r, s'⟩
  rw [hms] at hstats hcalls hend
  cases r with
  | error e => exact ⟨new, hcalls, hev, .inl ⟨hstats, by cases e <;> exact hend⟩⟩
  | ok a =>
    obtain ⟨new', hcalls', hev', hrest⟩ := hk a s'
    have hnone : ∀ c ∈ new, c.threw = none := hend
    refine ⟨new ++ new', by rw [hcalls', hcalls, List.append_assoc], ?_, ?_⟩
    · intro c hc
      rcases List.mem_append.1 hc with hc | hc
      · exact hev c hc
      · exact hev' c hc
    · dsimp only at hstats hrest ⊢
      rcases hrest with ⟨hstats', hend'⟩ | ⟨hok, hnone', reason, hnoted⟩
      · exact .inl ⟨hstats'.trans hstats, hend'.append hnone⟩
      · refine .inr ⟨hok, ?_, reason, by rw [hnoted, hstats]⟩
        intro c hc
        rcases List.mem_append.1 hc with hc | hc
        · exact hnone c hc
        · exact hnone' c hc

theorem dissects_icmp (ctx : FrameContext) (ip : Ipv4Header) (l4 : List UInt8) :
    Dissects env ctx.bytes ctx.frameIdx (dissectIcmp env ctx ip l4) := by
  unfold dissectIcmp
  split
  · exact Dissects.note _
  · exact (quiet_callListener env _).dissects

theorem dissects_udp (ctx : FrameContext) (eth : EthernetFrame) (ip : Ipv4Header)
    (l4 : List UInt8) :
    Dissects env ctx.bytes ctx.frameIdx (dissectUdp env ctx eth ip l4) := by
  unfold dissectUdp
  split
  · exact Dissects.note _
  · refine (quiet_callListener env _).bind_dissects fun _ => Quiet.dissects ?_
    split
    · exact Quiet.pure ()
    · split
      · exact (quiet_callListener env _).bind fun _ => quiet_deliver env _ _
      · exact quiet_deliver env _ _

theorem dissects_tcp (ctx : FrameContext) (ip : Ipv4Header) (l4 : List UInt8) :
    Dissects env ctx.bytes ctx.frameIdx (dissectTcp env ctx ip l4) := by
  unfold dissectTcp
  split
  · exact Dissects.note _
  · exact (quiet_callListener env _).bind_dissects fun _ => (quiet_followTcp env _ _).dissects

theorem dissects_callListener_bind {ev : CapturedEvent} {k : Unit → M σ φ Unit}
    (hk : ∀ a, Dissects env bytes idx (k a)) (s : Pipeline σ φ) :
    ∃ c ∈ ((callListener env ev >>= k) s).2.calls, c.isEvent = true := by
  obtain ⟨-, t, hcalls, -⟩ := callListener_run env ev s
  rw [bind_run]
  rcases hrun : callListener env ev s with ⟨r, s'⟩
  rw [hrun] at hcalls
  dsimp only at hcalls
  cases r with
  | error e => exact ⟨.event ev t, by simp [hcalls], rfl⟩
  | ok a =>
    obtain ⟨new, hnew, -⟩ := hk a s'
    exact ⟨.event ev t, by simp [hnew, hcalls], rfl⟩

/-- The IPv4 branch may count its frame, and has handed on the IPv4 header before it can. -/
theorem dissects_ipv4 (ctx : FrameContext) (eth : EthernetFrame) (ip : Ipv4Header) :
    Dissects env ctx.bytes ctx.frameIdx (dissectIpv4 env ctx eth ip) ∧
      ∀ s, ∃ c ∈ (dissectIpv4 env ctx eth ip s).2.calls, c.isEvent = true := by
  have hrest : ∀ _ : Unit, Dissects env ctx.bytes ctx.frameIdx (do
      if ip.fragmented then return
      let l4 := l4Of eth ip
      if ip.protocol = kIpProtoIcmp then dissectIcmp env ctx ip l4
      else if ip.protocol = kIpProtoUdp then dissectUdp env ctx eth ip l4
      else if ip.protocol = kIpProtoTcp then dissectTcp env ctx ip l4
      else return) := by
    intro _
    split_ifs
    · exact (Quiet.pure ()).dissects
    · exact dissects_icmp ctx ip _
    · exact dissects_udp ctx eth ip _
    · exact dissects_tcp ctx ip _
    · exact (Quiet.pure ()).dissects
  exact ⟨(quiet_callListener env _).bind_dissects hrest, dissects_callListener_bind hrest⟩

/-! ## One frame -/

variable (env)

/-- The frame is of an EtherType the pipeline does not observe. -/
def OtherEtherType (f : PcapFrame) : Prop :=
  f.datalink = kDltEn10mb ∧ ∃ eth, decodeEthernet f.bytes = some eth ∧
    eth.etherType ≠ kEtherTypeArp ∧ eth.etherType ≠ kEtherTypeIpv4

/-- The frame is a whole control-plane packet, which the pipeline withholds. -/
def Withheld (f : PcapFrame) : Prop :=
  f.datalink = kDltEn10mb ∧ f.len ≤ f.bytes.length ∧
    ∃ eth ip, decodeEthernet f.bytes = some eth ∧ eth.etherType = kEtherTypeIpv4 ∧
      decodeIpv4Header eth.payload = some ip ∧ withheld env eth ip = true

/-- The frame acknowledges a stimulus step on whose name the marker handler throws. -/
def MarkerThrows (s : Pipeline σ φ) (f : PcapFrame) : Prop :=
  Withheld env f ∧ ∃ handler name, env.markerListener = some handler ∧
    (takeMarker f.bytes s.markers).1 = some name ∧ (handler s.consumer name).2 ≠ none

/-- The condition under which a frame is accounted for. -/
def MeetsCondition (s : Pipeline σ φ) (f : PcapFrame) : Prop :=
  f.datalink = kDltEn10mb ∧ ¬ MarkerThrows env s f

/-- The counters once the frame is counted as seen. -/
def seenStats (s : Pipeline σ φ) : DissectionStats :=
  { s.stats with framesSeen := s.stats.framesSeen + 1 }

/-- Everything `processFrame` can do with one frame. -/
inductive FrameEnd (s : Pipeline σ φ) (f : PcapFrame) (s' : Pipeline σ φ) : Prop
  | notEthernet (datalink : f.datalink ≠ kDltEn10mb) (calls : s'.calls = [])
    (stats : s'.stats = seenStats s)
  | truncated (meets : MeetsCondition env s f) (calls : s'.calls = [])
    (stats : s'.stats = { seenStats s with framesTruncated := s.stats.framesTruncated + 1 })
  | notObserved (meets : MeetsCondition env s f) (other : OtherEtherType f) (calls : s'.calls = [])
    (stats : s'.stats = seenStats s)
  | withheld (meets : MeetsCondition env s f) (held : Withheld env f)
    (counted : s'.controlPlaneFrames = s.controlPlaneFrames + 1)
    (quiet : ∀ c ∈ s'.calls, c.threw = none) (stats : s'.stats = seenStats s)
  | markerThrew (throws : MarkerThrows env s f) (threw : ∃ c ∈ s'.calls, c.threw ≠ none)
    (reason : String)
    (stats : s'.stats = noteUndissectable env f.bytes s.stats.framesSeen reason (seenStats s))
  | handedOn (meets : MeetsCondition env s f) (event : ∃ c ∈ s'.calls, c.isEvent = true)
    (quiet : ∀ c ∈ s'.calls, c.threw = none) (stats : s'.stats = seenStats s)
  | unreadable (meets : MeetsCondition env s f) (quiet : ∀ c ∈ s'.calls, c.threw = none)
    (reason : String)
    (stats : s'.stats = noteUndissectable env f.bytes s.stats.framesSeen reason (seenStats s))
  | consumerFault (meets : MeetsCondition env s f) (event : ∃ c ∈ s'.calls, c.isEvent = true)
    (threw : ∃ c ∈ s'.calls, c.threw ≠ none) (what : String)
    (stats : s'.stats =
      settle env f.bytes s.stats.framesSeen (.error (.consumer what)) (seenStats s))

/-- The state `dissectFrame` starts from. -/
def dissectStart (s : Pipeline σ φ) (f : PcapFrame) : Pipeline σ φ :=
  { s with stats := seenStats s, calls := [], lastPacketTsUs := observedTsUsOf env f }

/-- The state after `dissectFrame`, with the catch clauses applied. -/
def caught (f : PcapFrame) (idx : Nat) (r : Except Fault Unit × Pipeline σ φ) : Pipeline σ φ :=
  { r.2 with stats := settle env f.bytes idx r.1 r.2.stats }

theorem processFrame_eq (s : Pipeline σ φ) (f : PcapFrame) (hdlt : f.datalink = kDltEn10mb)
    (hlen : f.len ≤ f.bytes.length) :
    processFrame env s f = caught env f s.stats.framesSeen
      (dissectFrame env f.bytes s.stats.framesSeen (observedTsUsOf env f) (dissectStart env s f)) := by
  unfold processFrame
  rw [if_neg (not_not.2 hdlt), if_neg (Nat.not_lt.2 hlen)]
  rfl

/-- A frame the capture cut short is counted, and nothing of it is handed on. -/
theorem processFrame_truncated (s : Pipeline σ φ) (f : PcapFrame) (hdlt : f.datalink = kDltEn10mb)
    (hlen : ¬ f.len ≤ f.bytes.length) :
    processFrame env s f = { s with
      stats := { seenStats s with framesTruncated := s.stats.framesTruncated + 1 }
      calls := [] } := by
  unfold processFrame
  rw [if_neg (not_not.2 hdlt), if_pos (Nat.not_le.1 hlen)]
  rfl

theorem processFrame_not_ethernet (s : Pipeline σ φ) (f : PcapFrame)
    (hdlt : f.datalink ≠ kDltEn10mb) :
    processFrame env s f = { s with stats := seenStats s, calls := [] } := by
  unfold processFrame
  rw [if_pos hdlt]
  rfl

theorem frameEnd_note {s : Pipeline σ φ} {f : PcapFrame} (meets : MeetsCondition env s f)
    (reason : String) :
    FrameEnd env s f (caught env f s.stats.framesSeen
      (note env f.bytes s.stats.framesSeen reason (dissectStart env s f))) :=
  .unreadable meets (by intro c hc; cases hc) reason rfl

/-- A frame some of which was handed on, by how its computation ended. -/
theorem frameEnd_dissects {s : Pipeline σ φ} {f : PcapFrame} {m : M σ φ Unit}
    (meets : MeetsCondition env s f) (hm : Dissects env f.bytes s.stats.framesSeen m)
    (hevent : ∃ c ∈ (m (dissectStart env s f)).2.calls, c.isEvent = true) :
    FrameEnd env s f (caught env f s.stats.framesSeen (m (dissectStart env s f))) := by
  obtain ⟨new, hcalls, -, hrest⟩ := hm (dissectStart env s f)
  rcases hrun : m (dissectStart env s f) with ⟨r, s'⟩
  rw [hrun] at hcalls hrest hevent
  change s'.calls = [] ++ new at hcalls
  rw [List.nil_append] at hcalls
  subst hcalls
  rcases hrest with ⟨hstats, hend⟩ | ⟨hok, hnone, reason, hnoted⟩
  · change s'.stats = seenStats s at hstats
    match r, hend with
    | .ok (), hend => exact .handedOn meets hevent hend hstats
    | .error (.consumer what), hend =>
      exact .consumerFault meets hevent hend what (by rw [← hstats]; rfl)
    | .error (.thrown (.std what)), hend =>
      exact .unreadable meets hend what (by rw [← hstats]; rfl)
    | .error (.thrown .other), hend =>
      exact .unreadable meets hend _ (by rw [← hstats]; rfl)
  · cases hok
    exact .unreadable meets hnone reason hnoted

/-- The state a marker handler is called in. -/
def withheldState (bytes : List UInt8) (s : Pipeline σ φ) : Pipeline σ φ :=
  { s with
    controlPlaneFrames := s.controlPlaneFrames + 1
    markers := (takeMarker bytes s.markers).2 }

theorem withhold_run_some {handler : σ → String → σ × Option Thrown}
    (hlistener : env.markerListener = some handler) (bytes : List UInt8) (s : Pipeline σ φ) :
    withhold env bytes s = match (takeMarker bytes s.markers).1 with
      | none => (.ok (), withheldState bytes s)
      | some name => callMarker handler name (withheldState bytes s) := by
  unfold withhold
  rw [hlistener, bind_run]
  change (match (takeMarker bytes s.markers).1 with
    | none => Pure.pure ()
    | some name => callMarker handler name : M σ φ Unit) (withheldState bytes s) = _
  cases (takeMarker bytes s.markers).1 <;> rfl

theorem callMarker_run (handler : σ → String → σ × Option Thrown) (name : String)
    (s : Pipeline σ φ) :
    callMarker handler name s = (match (handler s.consumer name).2 with
        | none => .ok ()
        | some t => .error (.thrown t),
      { s with
        consumer := (handler s.consumer name).1
        calls := s.calls ++ [.marker name (handler s.consumer name).2] }) := by
  unfold callMarker
  rcases handler s.consumer name with ⟨consumer, _ | t⟩ <;> rfl

/-- A frame whose acknowledgement the marker handler is told of. What the handler throws is counted
as if the frame had been unreadable. -/
theorem frameEnd_callMarker {s : Pipeline σ φ} {f : PcapFrame} (held : Withheld env f)
    {handler : σ → String → σ × Option Thrown} (hlistener : env.markerListener = some handler)
    {name : String} (htake : (takeMarker f.bytes s.markers).1 = some name) :
    FrameEnd env s f (caught env f s.stats.framesSeen
      (callMarker handler name (withheldState f.bytes (dissectStart env s f)))) := by
  rw [callMarker_run]
  change FrameEnd env s f (caught env f s.stats.framesSeen
    (match (handler s.consumer name).2 with
      | none => .ok ()
      | some t => .error (.thrown t),
    { withheldState f.bytes (dissectStart env s f) with
      consumer := (handler s.consumer name).1
      calls := [.marker name (handler s.consumer name).2] }))
  rcases hthrew : (handler s.consumer name).2 with _ | t
  · refine .withheld ⟨held.1, ?_⟩ held rfl ?_ rfl
    · rintro ⟨-, handler', name', hsome, hname, hthrew'⟩
      rw [hlistener] at hsome
      rw [htake] at hname
      cases hsome
      cases hname
      exact hthrew' hthrew
    · intro c hc
      rw [List.mem_singleton.1 hc]
      rfl
  · have hmarker : MarkerThrows env s f :=
      ⟨held, handler, name, hlistener, htake, by rw [hthrew]; exact Option.some_ne_none t⟩
    cases t with
    | std what =>
      exact .markerThrew hmarker ⟨_, List.mem_singleton_self _, by simp [Call.threw]⟩ what rfl
    | other =>
      exact .markerThrew hmarker ⟨_, List.mem_singleton_self _, by simp [Call.threw]⟩ _ rfl

theorem frameEnd_withhold {s : Pipeline σ φ} {f : PcapFrame} (held : Withheld env f) :
    FrameEnd env s f (caught env f s.stats.framesSeen
      (withhold env f.bytes (dissectStart env s f))) := by
  rcases hlistener : env.markerListener with _ | handler
  · have hrun : withhold env f.bytes (dissectStart env s f) = (.ok (),
        { dissectStart env s f with controlPlaneFrames := s.controlPlaneFrames + 1 }) := by
      unfold withhold
      rw [hlistener]
      rfl
    rw [hrun]
    refine .withheld ⟨held.1, ?_⟩ held rfl (by intro c hc; cases hc) rfl
    rintro ⟨-, handler, name, hsome, -⟩
    rw [hlistener] at hsome
    cases hsome
  · rw [withhold_run_some env hlistener]
    change FrameEnd env s f (caught env f s.stats.framesSeen
      (match (takeMarker f.bytes s.markers).1 with
        | none => _
        | some name => _))
    rcases htake : (takeMarker f.bytes s.markers).1 with _ | name
    · refine .withheld ⟨held.1, ?_⟩ held rfl (by intro c hc; cases hc) rfl
      rintro ⟨-, _, _, -, hsome, -⟩
      rw [htake] at hsome
      cases hsome
    · exact frameEnd_callMarker env held hlistener htake

/-- A whole Ethernet frame through `dissectFrame`, case by case as the layers are read. -/
theorem dissectFrame_end {s : Pipeline σ φ} {f : PcapFrame} (hdlt : f.datalink = kDltEn10mb)
    (hlen : f.len ≤ f.bytes.length) :
    FrameEnd env s f (caught env f s.stats.framesSeen
      (dissectFrame env f.bytes s.stats.framesSeen (observedTsUsOf env f)
        (dissectStart env s f))) := by
  have hmeets : ¬ Withheld env f → MeetsCondition env s f := fun h => ⟨hdlt, fun ht => h ht.1⟩
  unfold dissectFrame
  rcases heth : decodeEthernet f.bytes with _ | eth
  · refine frameEnd_note env (hmeets ?_) _
    rintro ⟨-, -, eth, ip, hsome, -⟩
    rw [heth] at hsome
    cases hsome
  -- Whether the frame is withheld is decided by the one Ethernet header it has.
  have hheld : Withheld env f → eth.etherType = kEtherTypeIpv4 ∧
      ∃ ip, decodeIpv4Header eth.payload = some ip ∧ withheld env eth ip = true := by
    rintro ⟨-, -, eth', ip, hsome, hip, hdec, hw⟩
    rw [heth] at hsome
    cases hsome
    exact ⟨hip, ip, hdec, hw⟩
  dsimp only
  by_cases harp : eth.etherType = kEtherTypeArp
  · have hm : MeetsCondition env s f := by
      refine hmeets fun h => ?_
      have hip := (hheld h).1
      rw [harp] at hip
      exact absurd hip (by decide)
    rw [if_pos harp]
    rcases decodeArp eth.payload with _ | arp
    · exact frameEnd_note env hm _
    · obtain ⟨-, t, hcalls, -⟩ := callListener_run env (.arp _) (dissectStart env s f)
      exact frameEnd_dissects env hm (quiet_callListener env _).dissects
        ⟨_, by rw [hcalls]; exact List.mem_append_right _ (List.mem_singleton_self _), rfl⟩
  rw [if_neg harp]
  by_cases hip : eth.etherType = kEtherTypeIpv4
  swap
  · rw [if_pos hip]
    exact .notObserved (hmeets fun h => hip (hheld h).1) ⟨hdlt, eth, heth, harp, hip⟩ rfl rfl
  rw [if_neg (not_not.2 hip)]
  rcases hdec : decodeIpv4Header eth.payload with _ | ip
  · refine frameEnd_note env (hmeets fun h => ?_) _
    obtain ⟨-, ip, hsome, -⟩ := hheld h
    rw [hdec] at hsome
    cases hsome
  dsimp only
  by_cases hw : withheld env eth ip = true
  · rw [if_pos hw]
    exact frameEnd_withhold env ⟨hdlt, hlen, eth, ip, heth, hip, hdec, hw⟩
  · rw [if_neg hw]
    have hm : MeetsCondition env s f := by
      refine hmeets fun h => ?_
      obtain ⟨-, ip', hsome, hw'⟩ := hheld h
      rw [hdec] at hsome
      cases hsome
      exact hw hw'
    obtain ⟨hdissects, hevent⟩ := @dissects_ipv4 σ φ env
      ⟨f.bytes, s.stats.framesSeen, observedTsUsOf env f, dot1qTagFrom eth⟩ eth ip
    exact frameEnd_dissects env hm hdissects (hevent _)

/-- **Step lemma**: every frame ends in one of the ways `FrameEnd` lists. -/
theorem processFrame_end (s : Pipeline σ φ) (f : PcapFrame) :
    FrameEnd env s f (processFrame env s f) := by
  by_cases hdlt : f.datalink = kDltEn10mb
  · by_cases hlen : f.len ≤ f.bytes.length
    · rw [processFrame_eq env s f hdlt hlen]
      exact dissectFrame_end env hdlt hlen
    · rw [processFrame_truncated env s f hdlt hlen]
      exact .truncated ⟨hdlt, fun h => hlen h.1.2.1⟩ rfl rfl
  · rw [processFrame_not_ethernet env s f hdlt]
    exact .notEthernet hdlt rfl rfl

end

end Tc8Harness.Dissect
