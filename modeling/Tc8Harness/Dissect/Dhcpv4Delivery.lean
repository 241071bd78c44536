import Tc8Harness.Dissect.Dhcpv4Captured
import Tc8Harness.Dissect.FrameEnd

/-!
# The DHCP events of a frame

Which events a layer of the pipeline hands to the listener, as long as no call throws (`Hands`), and
with it the one DHCP event of a frame that carries a whole BOOTP message (`processFrame_dhcpv4`).
-/

namespace Tc8Harness.Dissect

open Wire

/-- The DHCP messages among the calls of the case's code. -/
def dhcpv4Events (calls : List Call) : List Dhcpv4Frame :=
  calls.filterMap fun
    | .event (.dhcpv4 f) _ => some f
    | _ => none

section

variable {σ φ : Type}

/-- The computation returns after it has handed on the events, or a call threw. -/
def Hands (m : M σ φ Unit) (evs : List CapturedEvent) : Prop :=
  ∀ s : Pipeline σ φ,
    ((m s).1 = .ok () ∧ (m s).2.calls = s.calls ++ evs.map (.event · none)) ∨
      (m s).1 ≠ .ok () ∧ ∃ c ∈ (m s).2.calls, c.threw ≠ none

theorem Hands.pure : Hands (Pure.pure () : M σ φ Unit) [] :=
  fun _ => .inl ⟨rfl, (List.append_nil _).symm⟩

theorem Hands.bind {m : M σ φ Unit} {k : Unit → M σ φ Unit} {evs evs' : List CapturedEvent}
    (hm : Hands m evs) (hk : Hands (k ()) evs') : Hands (m >>= k) (evs ++ evs') := by
  intro s
  have hms := hm s
  rw [bind_run]
  rcases hrun : m s with ⟨r, s'⟩
  rw [hrun] at hms
  dsimp only at hms ⊢
  rcases hms with ⟨rfl, hcalls⟩ | ⟨hfailed, hthrew⟩
  · rcases hk s' with ⟨hok, hcalls'⟩ | hthrew
    · exact .inl ⟨hok, by rw [hcalls', hcalls, List.map_append, List.append_assoc]⟩
    · exact .inr hthrew
  · match r, hfailed with
    | .ok (), hfailed => exact absurd rfl hfailed
    | .error e, _ => exact .inr ⟨nofun, hthrew⟩

theorem Hands.forM {α : Type} {l : List α} {f : α → M σ φ Unit} {g : α → CapturedEvent}
    (hf : ∀ a, Hands (f a) [g a]) : Hands (l.forM f) (l.map g) := by
  induction l with
  | nil => exact Hands.pure
  | cons a l ih => exact (hf a).bind ih

variable (env : Env σ φ)

theorem hands_callListener (ev : CapturedEvent) : Hands (callListener env ev) [ev] := by
  intro s
  unfold callListener
  rcases env.listener s.consumer ev with ⟨consumer, threw⟩
  cases threw with
  | none => exact .inl ⟨rfl, rfl⟩
  | some t =>
    cases t <;>
      exact .inr ⟨(by simp), _, List.mem_append_right _ (List.mem_singleton_self _), by simp [Call.threw]⟩

theorem hands_deliver (t : Transport) (data : List UInt8) :
    Hands (deliver env t data) ((deliverFrames t data).map .someIp) :=
  Hands.forM fun f => hands_callListener env (.someIp f)

/-- What the pipeline tells about a datagram. -/
def udpFrameFrom (ctx : FrameContext) (eth : EthernetFrame) (ip : Ipv4Header) (udp : UdpDatagram) :
    UdpFrame :=
  { envelope := ipv4EnvelopeFrom ip
    srcIp := ip.srcBe
    dstIp := ip.dstBe
    udp := udp
    ethSrc := eth.src
    ethDst := eth.dst
    observedTsUs := ctx.observedTsUs
    vlan := ctx.vlan }

variable {env} {ctx : FrameContext} {eth : EthernetFrame} {ip : Ipv4Header} {udp : UdpDatagram}
  {bp : List UInt8}

/-- The transport a datagram's SOME/IP messages come over. -/
def udpTransport (ctx : FrameContext) (ip : Ipv4Header) (udp : UdpDatagram) : Transport :=
  { proto := .udp
    srcIp := ip.srcBe
    dstIp := ip.dstBe
    srcPort := udp.srcPort
    dstPort := udp.dstPort
    observedTsUs := ctx.observedTsUs }

theorem hands_dissectUdp (hudp : decodeUdp (l4Of eth ip) = some udp) (hbp : udp.payload = some bp)
    (hports : isDhcpPortPair udp.srcPort udp.dstPort = true) (hlen : kOptionsOff ≤ bp.length) :
    Hands (dissectUdp env ctx eth ip (l4Of eth ip))
      ([.udp (udpFrameFrom ctx eth ip udp)] ++
        ([.dhcpv4 (dhcpv4FrameFrom (udpFrameFrom ctx eth ip udp) bp)] ++
          (deliverFrames (udpTransport ctx ip udp) bp).map .someIp)) := by
  unfold dissectUdp
  rw [hudp]
  refine (hands_callListener env _).bind ?_
  rw [hbp]
  dsimp only
  rw [if_pos ⟨hports, hlen⟩]
  exact (hands_callListener env _).bind (hands_deliver env _ _)

theorem withheld_eq_false (hproto : ip.protocol = kIpProtoUdp)
    (hudp : decodeUdp (l4Of eth ip) = some udp) (hsrc : udp.srcPort ≠ env.controlPlanePort)
    (hdst : udp.dstPort ≠ env.controlPlanePort) : withheld env eth ip = false := by
  simp [withheld, isControlPlanePacket, hproto, hudp, hsrc, hdst]

theorem hands_dissectIpv4 (hproto : ip.protocol = kIpProtoUdp) (hfrag : ip.fragmented = false)
    {evs : List CapturedEvent} (hl4 : Hands (dissectUdp env ctx eth ip (l4Of eth ip)) evs) :
    ∃ f : Ipv4Frame, Hands (dissectIpv4 env ctx eth ip) ([.ipv4 f] ++ evs) := by
  refine ⟨_, (hands_callListener env _).bind ?_⟩
  rw [hfrag, if_neg Bool.false_ne_true, hproto]
  exact hl4

/-- **A frame with a BOOTP message between the DHCP ports is handed on as one DHCP event**, unless a
call of the case's code threw. -/
theorem processFrame_dhcpv4 {s : Pipeline σ φ} {f : PcapFrame} (hlink : f.datalink = kDltEn10mb)
    (hwhole : f.len ≤ f.bytes.length) (heth : decodeEthernet f.bytes = some eth)
    (htype : eth.etherType = kEtherTypeIpv4) (hip : decodeIpv4Header eth.payload = some ip)
    (hproto : ip.protocol = kIpProtoUdp) (hfrag : ip.fragmented = false)
    (hudp : decodeUdp (l4Of eth ip) = some udp) (hbp : udp.payload = some bp)
    (hports : isDhcpPortPair udp.srcPort udp.dstPort = true) (hlen : kOptionsOff ≤ bp.length)
    (hsrc : udp.srcPort ≠ env.controlPlanePort) (hdst : udp.dstPort ≠ env.controlPlanePort)
    (hreturned : ∀ c ∈ (processFrame env s f).calls, c.threw = none) :
    dhcpv4Events (processFrame env s f).calls =
      [dhcpv4FrameFrom (udpFrameFrom
        ⟨f.bytes, s.stats.framesSeen, observedTsUsOf env f, dot1qTagFrom eth⟩ eth ip udp) bp] := by
  have hrun : processFrame env s f = caught env f s.stats.framesSeen
      (dissectIpv4 env ⟨f.bytes, s.stats.framesSeen, observedTsUsOf env f, dot1qTagFrom eth⟩ eth ip
        (dissectStart env s f)) := by
    rw [processFrame_eq env s f hlink hwhole, dissectFrame, heth]
    dsimp only
    rw [if_neg (by rw [htype]; decide), if_neg (not_not.2 htype), hip]
    dsimp only
    rw [withheld_eq_false hproto hudp hsrc hdst, if_neg Bool.false_ne_true]
  obtain ⟨ev, hhands⟩ := hands_dissectIpv4 hproto hfrag
    (hands_dissectUdp hudp hbp hports hlen)
  rw [hrun] at hreturned ⊢
  rcases hhands (dissectStart env s f) with ⟨-, hcalls⟩ | ⟨-, c, hc, hthrew⟩
  · change dhcpv4Events (dissectIpv4 _ _ _ _ _).2.calls = _
    rw [hcalls]
    simp [dhcpv4Events, dissectStart]
  · exact absurd (hreturned c hc) hthrew

end

end Tc8Harness.Dissect
