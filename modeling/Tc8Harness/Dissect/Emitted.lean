import Tc8Harness.Dissect.FrameEnd

/-!
# The transport frames of a captured frame

What every call of the case's code in a layer of the pipeline satisfies (`Emits`), and with it that
every datagram and segment the pipeline hands on is read from the bytes of the captured frame, and has its
time (`processFrame_shows`). The stream follower's callbacks hand on SOME/IP messages only, so nothing of an
earlier frame comes out as a transport frame of a later one.
-/

namespace Tc8Harness.Dissect

open Wire

section Emitted

variable {σ φ α β : Type} {P : Call → Prop}

/-- Every call of the case's code that the computation makes satisfies `P`. -/
def Emits (P : Call → Prop) (m : M σ φ α) : Prop :=
  ∀ s : Pipeline σ φ, ∃ new, (m s).2.calls = s.calls ++ new ∧ ∀ c ∈ new, P c

theorem Emits.of_calls_eq {m : M σ φ α} (h : ∀ s, (m s).2.calls = s.calls) : Emits P m :=
  fun s => ⟨[], by rw [h, List.append_nil], by simp⟩

theorem Emits.bind {m : M σ φ α} {k : α → M σ φ β} (hm : Emits P m) (hk : ∀ a, Emits P (k a)) :
    Emits P (m >>= k) := by
  intro s
  obtain ⟨new, hcalls, hnew⟩ := hm s
  rw [bind_run]
  rcases hrun : m s with ⟨r, s'⟩
  rw [hrun] at hcalls
  cases r with
  | error e => exact ⟨new, hcalls, hnew⟩
  | ok a =>
    obtain ⟨new', hcalls', hnew'⟩ := hk a s'
    refine ⟨new ++ new', by rw [hcalls', hcalls, List.append_assoc], ?_⟩
    intro c hc
    rcases List.mem_append.1 hc with hc | hc
    · exact hnew c hc
    · exact hnew' c hc

theorem Emits.forM {l : List α} {f : α → M σ φ Unit} (hf : ∀ a, Emits P (f a)) :
    Emits P (l.forM f) := by
  induction l with
  | nil => exact Emits.of_calls_eq fun _ => rfl
  | cons a l ih => exact (hf a).bind fun _ => ih

variable (env : Env σ φ)

theorem emits_callListener {ev : CapturedEvent} (h : ∀ t, P (.event ev t)) :
    Emits P (callListener env ev) := by
  intro s
  obtain ⟨-, t, hcalls, -⟩ := callListener_run env ev s
  exact ⟨_, hcalls, by simpa using h t⟩

theorem emits_feed (hsomeIp : ∀ f t, P (.event (.someIp f) t)) (t : Transport) (data : List UInt8) :
    Emits P (feed env t data) := by
  have hstill : Emits P (MonadState.get : M σ φ (Pipeline σ φ)) := Emits.of_calls_eq fun _ => rfl
  unfold feed
  refine hstill.bind fun s => Emits.bind (Emits.of_calls_eq fun _ => rfl) fun _ => ?_
  exact (Emits.forM fun f => emits_callListener env (hsomeIp f)).bind fun _ =>
    Emits.of_calls_eq fun _ => rfl

theorem emits_onStreamData (hsomeIp : ∀ f t, P (.event (.someIp f) t)) (d : StreamData) :
    Emits P (onStreamData env d) := by
  have hstill : Emits P (MonadState.get : M σ φ (Pipeline σ φ)) := Emits.of_calls_eq fun _ => rfl
  unfold onStreamData
  split
  · exact Emits.of_calls_eq fun _ => rfl
  · exact hstill.bind fun _ => emits_feed env hsomeIp _ _

/-- Whatever the follower does with its callbacks, it hands on SOME/IP messages only. -/
theorem emits_runFollower (hsomeIp : ∀ f t, P (.event (.someIp f) t)) (run : FollowerRun φ) :
    Emits P (runFollower env run) := by
  induction run with
  | done state => exact Emits.of_calls_eq fun _ => rfl
  | throws t state => exact Emits.of_calls_eq fun _ => rfl
  | data d onThrow next ih =>
    intro s
    have hboth := (emits_onStreamData env hsomeIp d).bind (fun _ => ih) s
    rw [bind_run] at hboth
    unfold runFollower
    rcases hrun : onStreamData env d s with ⟨r, s'⟩
    rw [hrun] at hboth
    cases r with
    | ok a => exact hboth
    | error e => exact hboth

theorem emits_followTcp (hsomeIp : ∀ f t, P (.event (.someIp f) t)) (ip : Ipv4Header)
    (tcp : TcpSegment) : Emits P (followTcp env ip tcp) := by
  have hstill : Emits P (MonadState.get : M σ φ (Pipeline σ φ)) := Emits.of_calls_eq fun _ => rfl
  exact hstill.bind fun _ => emits_runFollower env hsomeIp _

/-! ## The layers -/

/-- The frame is one unfragmented IPv4 packet, with these headers. -/
structure Carried (bytes : List UInt8) (eth : EthernetFrame) (ip : Ipv4Header) : Prop where
  ethernet : decodeEthernet bytes = some eth
  etherType : eth.etherType = kEtherTypeIpv4
  header : decodeIpv4Header eth.payload = some ip
  whole : ip.fragmented = false

/-- A call with a transport frame is about the one in the bytes of the frame captured at `ts`. -/
def Shows (bytes : List UInt8) (ts : Int) : Call → Prop
  | .event (.udp uf) _ => uf.observedTsUs = ts ∧ ∃ eth ip, Carried bytes eth ip ∧
      ip.protocol = kIpProtoUdp ∧ decodeUdp (l4Of eth ip) = some uf.udp ∧ uf.srcIp = ip.srcBe ∧
      uf.dstIp = ip.dstBe
  | .event (.tcp tf) _ => tf.observedTsUs = ts ∧ ∃ eth ip, Carried bytes eth ip ∧
      ip.protocol = kIpProtoTcp ∧ decodeTcp (l4Of eth ip) = some tf.tcp ∧ tf.srcIp = ip.srcBe ∧
      tf.dstIp = ip.dstBe
  | _ => True

variable {env} {bytes : List UInt8} {ts : Int} {eth : EthernetFrame} {ip : Ipv4Header} {ctx : FrameContext}

theorem emits_dissectIcmp (l4 : List UInt8) :
    Emits (Shows bytes ts) (dissectIcmp env ctx ip l4) := by
  unfold dissectIcmp
  split
  · exact Emits.of_calls_eq fun _ => rfl
  · exact emits_callListener env fun _ => trivial

theorem emits_dissectUdp (hcarried : Carried bytes eth ip) (hproto : ip.protocol = kIpProtoUdp) :
    Emits (Shows bytes ctx.observedTsUs) (dissectUdp env ctx eth ip (l4Of eth ip)) := by
  have hdeliver : ∀ t data, Emits (Shows bytes ctx.observedTsUs) (deliver env t data) := fun t data =>
    Emits.forM fun _ => emits_callListener env fun _ => trivial
  unfold dissectUdp
  split
  · exact Emits.of_calls_eq fun _ => rfl
  next udp hudp =>
    refine Emits.bind (emits_callListener env fun _ => ?_) fun _ => ?_
    · exact ⟨rfl, eth, ip, hcarried, hproto, hudp, rfl, rfl⟩
    · split
      · exact Emits.of_calls_eq fun _ => rfl
      · split
        · exact (emits_callListener env fun _ => trivial).bind fun _ => hdeliver _ _
        · exact hdeliver _ _

theorem emits_dissectTcp (hcarried : Carried bytes eth ip) (hproto : ip.protocol = kIpProtoTcp) :
    Emits (Shows bytes ctx.observedTsUs) (dissectTcp env ctx ip (l4Of eth ip)) := by
  unfold dissectTcp
  split
  · exact Emits.of_calls_eq fun _ => rfl
  next tcp htcp =>
    refine Emits.bind (emits_callListener env fun _ => ?_) fun _ => ?_
    · exact ⟨rfl, eth, ip, hcarried, hproto, htcp, rfl, rfl⟩
    · exact emits_followTcp env (fun _ _ => trivial) ip tcp

theorem emits_dissectIpv4 (heth : decodeEthernet bytes = some eth)
    (htype : eth.etherType = kEtherTypeIpv4) (hip : decodeIpv4Header eth.payload = some ip) :
    Emits (Shows bytes ctx.observedTsUs) (dissectIpv4 env ctx eth ip) := by
  unfold dissectIpv4
  refine (emits_callListener env fun _ => trivial).bind fun _ => ?_
  split
  · exact Emits.of_calls_eq fun _ => rfl
  next hfrag =>
    have hcarried : Carried bytes eth ip := ⟨heth, htype, hip, Bool.eq_false_of_not_eq_true hfrag⟩
    split_ifs with hicmp hudp htcp
    · exact emits_dissectIcmp _
    · exact emits_dissectUdp hcarried hudp
    · exact emits_dissectTcp hcarried htcp
    · exact Emits.of_calls_eq fun _ => rfl

theorem emits_withhold : Emits (Shows bytes ts) (withhold env bytes) := by
  intro s
  rcases hlistener : env.markerListener with _ | handler
  · refine ⟨[], ?_, by simp⟩
    unfold withhold
    rw [hlistener, List.append_nil]
    rfl
  · rw [withhold_run_some env hlistener]
    split
    · exact ⟨[], (List.append_nil _).symm, by simp⟩
    · rw [callMarker_run]
      exact ⟨_, rfl, by simp [Shows]⟩

theorem emits_dissectFrame (frameIdx : Nat) (observedTsUs : Int) :
    Emits (Shows bytes observedTsUs) (dissectFrame env bytes frameIdx observedTsUs) := by
  unfold dissectFrame
  split
  · exact Emits.of_calls_eq fun _ => rfl
  next eth heth =>
    dsimp only
    split
    · split
      · exact Emits.of_calls_eq fun _ => rfl
      · exact emits_callListener env fun _ => trivial
    · split
      · exact Emits.of_calls_eq fun _ => rfl
      next htype =>
        split
        · exact Emits.of_calls_eq fun _ => rfl
        next ip hip =>
          split
          · exact emits_withhold
          · exact emits_dissectIpv4 heth (not_not.1 htype) hip

/-- Every transport frame the pipeline hands on is read from the captured frame, and has its time. -/
theorem processFrame_shows (s : Pipeline σ φ) (f : PcapFrame) :
    ∀ c ∈ (processFrame env s f).calls, Shows f.bytes (observedTsUsOf env f) c := by
  intro c hc
  by_cases hdlt : f.datalink = kDltEn10mb
  · by_cases hlen : f.len ≤ f.bytes.length
    · rw [processFrame_eq env s f hdlt hlen] at hc
      have hemits : Emits (Shows f.bytes (observedTsUsOf env f))
          (dissectFrame env f.bytes s.stats.framesSeen (observedTsUsOf env f)) :=
        emits_dissectFrame _ _
      obtain ⟨new, hcalls, hnew⟩ := hemits (dissectStart env s f)
      refine hnew c ?_
      change c ∈ (dissectFrame env f.bytes _ _ _).2.calls at hc
      rw [hcalls] at hc
      exact hc
    · rw [processFrame_truncated env s f hdlt hlen] at hc
      cases hc
  · rw [processFrame_not_ethernet env s f hdlt] at hc
    cases hc

end Emitted

end Tc8Harness.Dissect
