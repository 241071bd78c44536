import Tc8Harness.Capture.FrameSummary
import Tc8Harness.Dissect.Accounting
import Tc8Harness.Dissect.Emitted

/-!
# The two frame readers

`summarizeEthernetFrame` and the packet pipeline read the same captured bytes. `readers_agree` compares
them on all frames. Wherever the pipeline hands on a datagram or a segment, the summary names its ends.
The converse holds of the frames whose tags both step over and that were captured whole: a frame behind
another tag, a frame cut short and a frame on which the case's own code throws is overlooked.
-/

namespace Tc8Harness.Capture

open Wire Dissect

/-! ## From the pipeline to the summary -/

section Agreement

variable {σ φ : Type} {env : Env σ φ} {bytes : List UInt8} {eth : EthernetFrame} {ip : Ipv4Header}

/-- The call hands on a datagram or a segment. -/
def IsTransport : Call → Prop
  | .event (.udp _) _ => True
  | .event (.tcp _) _ => True
  | _ => False

/-- The addressing of a summary, with the two ends of a transport frame. -/
structure Names (sum : FrameSummary) (proto : SummaryProto) (srcIp dstIp : UInt32)
    (srcPort dstPort : UInt16) : Prop where
  hasIps : sum.hasIps = true
  hasPorts : sum.hasPorts = true
  proto : sum.proto = proto
  srcIpBe : sum.srcIpBe = srcIp
  dstIpBe : sum.dstIpBe = dstIp
  srcPort : sum.srcPort = srcPort
  dstPort : sum.dstPort = dstPort

/-- A word of the payload as the Total Length bounds it is one of the bytes that arrived. -/
theorem readBe16_l4Of {i : Nat} (h : i + 2 ≤ (l4Of eth ip).length) :
    readBe16 (l4Of eth ip) i = readBe16 eth.payload (ip.headerLen + i) := by
  rw [l4Of, List.length_take, List.length_drop] at h
  rw [l4Of, readBe16, readBe16, Someip.readBe_drop, readBe, readBe, List.drop_take, List.take_take,
    min_eq_left (by omega)]

/-- The ports of a carried packet, with at least the four bytes they take, are in its summary. -/
theorem names_of_carried (hcarried : Carried bytes eth ip) (hversion : eth.payload.getD 0 0 >>> 4 = 4)
    (hproto : summaryProto ip.protocol ≠ .kOther) (hlen : 4 ≤ (l4Of eth ip).length) (wireLen : Nat) :
    Names (summarizeEthernetFrame bytes wireLen) (summaryProto ip.protocol) ip.srcBe ip.dstBe
      (readBe16 (l4Of eth ip) 0) (readBe16 (l4Of eth ip) 2) := by
  obtain ⟨off, hcarries⟩ := carries_of_decodeEthernet hcarried.ethernet
    (by rw [hcarried.etherType]; decide)
  have hfirst : ip.fragmentOffset = 0 := by
    have hwhole := hcarried.whole
    simp only [Ipv4Header.fragmented, Bool.or_eq_false_iff, bne_eq_false_iff_eq] at hwhole
    exact hwhole.2
  have hreach : ip.headerLen + 4 ≤ eth.payload.length := by
    rw [l4Of, List.length_take, List.length_drop] at hlen
    omega
  rw [summary_of_header hcarries hcarried.etherType hcarried.header hversion hproto hfirst hreach,
    readBe16_l4Of (by omega), readBe16_l4Of (by omega)]
  exact ⟨rfl, rfl, rfl, rfl, rfl, rfl, rfl⟩

theorem decodeUdp_ports {p : List UInt8} {udp : UdpDatagram} (h : decodeUdp p = some udp) :
    4 ≤ p.length ∧ udp.srcPort = readBe16 p 0 ∧ udp.dstPort = readBe16 p 2 := by
  unfold decodeUdp at h
  split at h
  · cases h
  next hlen =>
    have hheader : kUdpHeaderLen ≤ p.length := Nat.le_of_not_lt hlen
    cases h
    exact ⟨le_trans (by decide) hheader, rfl, rfl⟩

theorem decodeTcp_ports {p : List UInt8} {tcp : TcpSegment} (h : decodeTcp p = some tcp) :
    4 ≤ p.length ∧ tcp.srcPort = readBe16 p 0 ∧ tcp.dstPort = readBe16 p 2 := by
  unfold decodeTcp at h
  split at h
  · cases h
  next hlen =>
    have hheader : kTcpFixedHeaderLen ≤ p.length := Nat.le_of_not_lt hlen
    dsimp only at h
    split at h
    · cases h
    · cases h
      exact ⟨le_trans (by decide) hheader, rfl, rfl⟩

/-! ## From the summary to the pipeline -/

/-- How the IPv4 branch ends for a packet with ports: it hands on a transport frame, or counts the
packet, unless the listener threw on the IPv4 header before. -/
inductive TransportEnd (env : Env σ φ) (ctx : FrameContext) (s : Pipeline σ φ)
    (r : Except Fault Unit × Pipeline σ φ) : Prop
  | faulted (what : String) (threw : r.1 = .error (.consumer what)) (stats : r.2.stats = s.stats)
  | emitted (call : ∃ c ∈ r.2.calls, IsTransport c)
  | noted (returned : r.1 = .ok ()) (reason : String)
    (stats : r.2.stats = noteUndissectable env ctx.bytes ctx.frameIdx reason s.stats)

theorem transportEnd_callListener {ctx : FrameContext} {s s' : Pipeline σ φ} {ev : CapturedEvent}
    {k : Unit → M σ φ Unit} (hev : ∀ t, IsTransport (.event ev t))
    (hk : ∀ a, Quiet (k a)) :
    TransportEnd env ctx s ((callListener env ev >>= k) s') := by
  refine .emitted ?_
  obtain ⟨-, t, hcalls, -⟩ := callListener_run env ev s'
  rw [bind_run]
  rcases hrun : callListener env ev s' with ⟨r, s''⟩
  rw [hrun] at hcalls
  dsimp only at hcalls
  cases r with
  | error e => exact ⟨.event ev t, by simp [hcalls], hev t⟩
  | ok a =>
    obtain ⟨-, new, hnew, -⟩ := hk a s''
    exact ⟨.event ev t, by simp [hnew, hcalls], hev t⟩

/-- What the listener throws comes out as the consumer's fault. -/
theorem callListener_ne_thrown (env : Env σ φ) (ev : CapturedEvent) (s : Pipeline σ φ) (t : Thrown) :
    (callListener env ev s).1 ≠ .error (.thrown t) := by
  unfold callListener
  rcases env.listener s.consumer ev with ⟨consumer, threw⟩
  match threw with
  | none => nofun
  | some (.std what) => nofun
  | some .other => nofun

theorem dissectUdp_transportEnd {ctx : FrameContext} {l4 : List UInt8} {s s' : Pipeline σ φ}
    (hstats : s'.stats = s.stats) : TransportEnd env ctx s (dissectUdp env ctx eth ip l4 s') := by
  unfold dissectUdp
  rcases decodeUdp l4 with _ | udp
  · exact .noted rfl _ (by rw [← hstats]; rfl)
  · refine transportEnd_callListener (fun _ => trivial) fun _ => ?_
    split
    · exact Quiet.pure ()
    · split
      · exact (quiet_callListener env _).bind fun _ => quiet_deliver env _ _
      · exact quiet_deliver env _ _

theorem dissectTcp_transportEnd {ctx : FrameContext} {l4 : List UInt8} {s s' : Pipeline σ φ}
    (hstats : s'.stats = s.stats) : TransportEnd env ctx s (dissectTcp env ctx ip l4 s') := by
  unfold dissectTcp
  rcases decodeTcp l4 with _ | tcp
  · exact .noted rfl _ (by rw [← hstats]; rfl)
  · exact transportEnd_callListener (fun _ => trivial) fun _ => quiet_followTcp env _ _

theorem dissectIpv4_transportEnd {ctx : FrameContext} (hwhole : ip.fragmented = false)
    (hproto : summaryProto ip.protocol ≠ .kOther) (s : Pipeline σ φ) :
    TransportEnd env ctx s (dissectIpv4 env ctx eth ip s) := by
  unfold dissectIpv4
  rw [bind_run]
  generalize hev : CapturedEvent.ipv4 _ = ev
  obtain ⟨hstats, t, -, hend⟩ := callListener_run env ev s
  rcases hrun : callListener env ev s with ⟨r, s'⟩
  rw [hrun] at hstats hend
  match r, hend with
  | .error (.consumer what), _ => exact .faulted what rfl hstats
  | .error (.thrown t'), _ =>
    exact absurd (congrArg Prod.fst hrun) (callListener_ne_thrown env ev s t')
  | .ok (), _ =>
    dsimp only
    rw [hwhole, if_neg Bool.false_ne_true]
    have hicmp : ip.protocol ≠ kIpProtoIcmp := by
      intro heq
      rw [heq] at hproto
      exact hproto rfl
    rw [if_neg hicmp]
    unfold summaryProto at hproto
    split_ifs at hproto ⊢ with hudp htcp
    · exact dissectUdp_transportEnd hstats
    · exact dissectTcp_transportEnd hstats
    · exact absurd rfl hproto

/-- The packet behind the frame's tags has neither More-Fragments nor an offset. -/
def Unfragmented (bytes : List UInt8) : Prop :=
  ∀ off, stepOverTags bytes 2 12 = some off → readBe16 bytes (off + 2 + 6) &&& 0x3fff = 0

/-- The decoder's flag and offset are both in the word. -/
theorem fragmented_of_word {p : List UInt8} (hip : decodeIpv4Header p = some ip)
    (h : readBe16 p 6 &&& 0x3fff = 0) : ip.fragmented = false := by
  obtain ⟨hfixed, hflags⟩ : kIpv4FixedHeaderLen ≤ p.length ∧ ip.flags = p.getD 6 0 >>> 5 := by
    unfold decodeIpv4Header at hip
    split at hip
    · cases hip
    next hfixed =>
      dsimp only at hip
      split at hip
      · cases hip
      · cases hip
        exact ⟨Nat.le_of_not_lt hfixed, rfl⟩
  rw [kIpv4FixedHeaderLen] at hfixed
  have hpair : (p.drop 6).take 2 = [p.getD 6 0, p.getD 7 0] := by
    rw [List.drop_eq_getElem_cons (by omega), List.drop_eq_getElem_cons (by omega),
      List.getD_eq_getElem p 0 (by omega), List.getD_eq_getElem p 0 (by omega)]
    rfl
  have hhi := (p.getD 6 0).toNat_lt
  have hlo := (p.getD 7 0).toNat_lt
  have hword : (readBe16 p 6).toNat = (p.getD 6 0).toNat * 256 + (p.getD 7 0).toNat := by
    rw [readBe16, readBe, hpair, UInt16.toNat_ofNat', Nat.mod_eq_of_lt] <;>
      simp only [BigEndian.ofBE, List.foldl_cons, List.foldl_nil] <;> omega
  have hmod : (readBe16 p 6).toNat % 2 ^ 14 = 0 := by
    rw [← Nat.and_two_pow_sub_one_eq_mod]
    simpa using congrArg UInt16.toNat h
  rw [hword] at hmod
  have hoffset : ip.fragmentOffset = 0 := by
    rw [(headerAt_of_decode hip).fragmentOffset]
    apply UInt16.toNat_inj.1
    rw [UInt16.toNat_and, hword]
    change _ &&& (2 ^ 13 - 1) = 0
    rw [Nat.and_two_pow_sub_one_eq_mod]
    omega
  have hmore : ip.flags &&& 0x1 = 0 := by
    rw [hflags]
    apply UInt8.toNat_inj.1
    rw [UInt8.toNat_and, UInt8.toNat_shiftRight]
    change (p.getD 6 0).toNat >>> 5 &&& (2 ^ 1 - 1) = 0
    rw [Nat.and_two_pow_sub_one_eq_mod, Nat.shiftRight_eq_div_pow]
    omega
  rw [Ipv4Header.fragmented, hmore, hoffset]
  rfl

/-- Where the summary names ports and the pipeline steps over the same tags, the frame is an IPv4
packet of a transport protocol. -/
theorem carried_of_hasPorts {wireLen : Nat} (htags : AtMostOneDot1Q bytes)
    (hwhole : Unfragmented bytes) (h : (summarizeEthernetFrame bytes wireLen).hasPorts = true) :
    ∃ eth ip, Carried bytes eth ip ∧ summaryProto ip.protocol ≠ .kOther := by
  obtain ⟨off, hports⟩ := portsAt_of_hasPorts h
  obtain ⟨eth, heth, hcarries⟩ := carries_of_stepOverTags hports.header htags hports.located
  have htype : eth.etherType = kEtherTypeIpv4 := by rw [← hcarries.etherType]; exact hports.etherType
  have hzero : bytes.getD (off + 2) 0 = eth.payload.getD 0 0 := hcarries.getD_at 0
  have hmin := hports.options
  have hreach := hports.reach
  rw [hzero] at hmin hreach
  rw [hcarries.length_eq] at hreach
  obtain ⟨ip, hip⟩ := exists_decodeIpv4Header hmin (by omega)
  have hword := hwhole off hports.located
  rw [hcarries.readBe16_at] at hword
  refine ⟨eth, ip, ⟨heth, htype, hip, fragmented_of_word hip hword⟩, ?_⟩
  rw [(headerAt_of_decode hip).protocol, ← hcarries.getD_at]
  exact hports.protocol

/-- A carried packet goes through the IPv4 branch when no control port is set. -/
theorem processFrame_of_carried {s : Pipeline σ φ} {f : PcapFrame} (hcarried : Carried f.bytes eth ip)
    (hport : env.controlPlanePort = 0) (hdlt : f.datalink = kDltEn10mb)
    (hlen : f.len ≤ f.bytes.length) :
    processFrame env s f = caught env f s.stats.framesSeen
      (dissectIpv4 env ⟨f.bytes, s.stats.framesSeen, observedTsUsOf env f, dot1qTagFrom eth⟩ eth ip
        (dissectStart env s f)) := by
  have hfree : withheld env eth ip = false := by
    rw [withheld, hport]
    rfl
  rw [processFrame_eq env s f hdlt hlen, dissectFrame, hcarried.ethernet]
  dsimp only
  rw [if_neg (by rw [hcarried.etherType]; decide), if_neg (not_not.2 hcarried.etherType),
    hcarried.header]
  dsimp only
  rw [hfree, if_neg Bool.false_ne_true]

/-- A datagram that is handed on is in the frame's summary. -/
theorem names_of_udp {s : Pipeline σ φ} {f : PcapFrame} {uf : UdpFrame} {t : Option Thrown}
    (hversion : ∀ eth, decodeEthernet f.bytes = some eth → eth.payload.getD 0 0 >>> 4 = 4)
    (hmem : .event (.udp uf) t ∈ (processFrame env s f).calls) :
    Names (summarizeEthernetFrame f.bytes f.len) .kUdp uf.srcIp uf.dstIp uf.udp.srcPort uf.udp.dstPort := by
  obtain ⟨-, eth, ip, hcarried, hproto, hudp, hsrc, hdst⟩ := processFrame_shows s f _ hmem
  have hsum : summaryProto ip.protocol = .kUdp := by rw [hproto]; rfl
  obtain ⟨hlen, hsport, hdport⟩ := decodeUdp_ports hudp
  have hnames := names_of_carried hcarried (hversion eth hcarried.ethernet) (by rw [hsum]; decide)
    hlen f.len
  rw [hsum, ← hsrc, ← hdst, ← hsport, ← hdport] at hnames
  exact hnames

/-- So is a segment. -/
theorem names_of_tcp {s : Pipeline σ φ} {f : PcapFrame} {tf : TcpFrame} {t : Option Thrown}
    (hversion : ∀ eth, decodeEthernet f.bytes = some eth → eth.payload.getD 0 0 >>> 4 = 4)
    (hmem : .event (.tcp tf) t ∈ (processFrame env s f).calls) :
    Names (summarizeEthernetFrame f.bytes f.len) .kTcp tf.srcIp tf.dstIp tf.tcp.srcPort tf.tcp.dstPort := by
  obtain ⟨-, eth, ip, hcarried, hproto, htcp, hsrc, hdst⟩ := processFrame_shows s f _ hmem
  have hsum : summaryProto ip.protocol = .kTcp := by rw [hproto]; rfl
  obtain ⟨hlen, hsport, hdport⟩ := decodeTcp_ports htcp
  have hnames := names_of_carried hcarried (hversion eth hcarried.ethernet) (by rw [hsum]; decide)
    hlen f.len
  rw [hsum, ← hsrc, ← hdst, ← hsport, ← hdport] at hnames
  exact hnames

/-- The record's summary has the time of the transport frames that are handed on, with their ends. -/
theorem summarizePcapRecord_names (s : Pipeline σ φ) (f : PcapFrame)
    (hversion : ∀ eth, decodeEthernet f.bytes = some eth → eth.payload.getD 0 0 >>> 4 = 4) :
    (∀ uf t, .event (.udp uf) t ∈ (processFrame env s f).calls →
      (summarizePcapRecord f env.nanoPrecision).tUs = uf.observedTsUs ∧
        Names (summarizePcapRecord f env.nanoPrecision) .kUdp uf.srcIp uf.dstIp uf.udp.srcPort
          uf.udp.dstPort) ∧
    ∀ tf t, .event (.tcp tf) t ∈ (processFrame env s f).calls →
      (summarizePcapRecord f env.nanoPrecision).tUs = tf.observedTsUs ∧
        Names (summarizePcapRecord f env.nanoPrecision) .kTcp tf.srcIp tf.dstIp tf.tcp.srcPort
          tf.tcp.dstPort := by
  refine ⟨fun uf t hmem => ⟨?_, ?_⟩, fun tf t hmem => ⟨?_, ?_⟩⟩
  · exact (processFrame_shows s f _ hmem).1.symm
  · obtain ⟨hips, hports, hproto, hsrc, hdst, hsport, hdport⟩ := names_of_udp hversion hmem
    exact ⟨hips, hports, hproto, hsrc, hdst, hsport, hdport⟩
  · exact (processFrame_shows s f _ hmem).1.symm
  · obtain ⟨hips, hports, hproto, hsrc, hdst, hsport, hdport⟩ := names_of_tcp hversion hmem
    exact ⟨hips, hports, hproto, hsrc, hdst, hsport, hdport⟩

/-- **The two frame readers agree.** With no control port set, the addresses, ports and protocol of
every datagram and segment the pipeline hands on, read behind an IPv4 header of version 4, are those
of the frame's summary. A frame captured whole, with one 802.1Q tag at most and no fragment, whose
summary names ports is handed on as a datagram or a segment, or counted as undissectable, or the
case's listener threw on its IPv4 header. -/
theorem readers_agree (s : Pipeline σ φ) (f : PcapFrame) (hport : env.controlPlanePort = 0) :
    ((∀ eth, decodeEthernet f.bytes = some eth → eth.payload.getD 0 0 >>> 4 = 4) →
      (∀ uf t, .event (.udp uf) t ∈ (processFrame env s f).calls →
        Names (summarizeEthernetFrame f.bytes f.len) .kUdp uf.srcIp uf.dstIp uf.udp.srcPort
          uf.udp.dstPort) ∧
      ∀ tf t, .event (.tcp tf) t ∈ (processFrame env s f).calls →
        Names (summarizeEthernetFrame f.bytes f.len) .kTcp tf.srcIp tf.dstIp tf.tcp.srcPort
          tf.tcp.dstPort) ∧
    (f.datalink = kDltEn10mb → f.len ≤ f.bytes.length → AtMostOneDot1Q f.bytes →
      Unfragmented f.bytes → (summarizeEthernetFrame f.bytes f.len).hasPorts = true →
        (∃ c ∈ (processFrame env s f).calls, IsTransport c) ∨
        (processFrame env s f).stats.framesUndissectable = s.stats.framesUndissectable + 1 ∨
        (processFrame env s f).stats.consumerFaults = s.stats.consumerFaults + 1) := by
  refine ⟨fun hversion => ⟨fun uf t hmem => ?_, fun tf t hmem => ?_⟩, ?_⟩
  · exact names_of_udp hversion hmem
  · exact names_of_tcp hversion hmem
  · intro hdlt hlen htags hwhole hports
    obtain ⟨eth, ip, hcarried, hproto⟩ := carried_of_hasPorts htags hwhole hports
    rw [processFrame_of_carried hcarried hport hdlt hlen]
    have hend : TransportEnd env _ (dissectStart env s f)
        (dissectIpv4 env ⟨f.bytes, s.stats.framesSeen, observedTsUsOf env f, dot1qTagFrom eth⟩ eth ip
          (dissectStart env s f)) := dissectIpv4_transportEnd hcarried.whole hproto _
    cases hend with
    | faulted what threw stats =>
      refine .inr (.inr ?_)
      rw [caught, threw]
      dsimp only
      rw [(settle_consumer_counts env _ _ _ _).2.2.1, stats]
      rfl
    | emitted call => exact .inl call
    | noted returned reason stats =>
      refine .inr (.inl ?_)
      rw [caught, returned]
      dsimp only [settle]
      rw [stats, (noteUndissectable_counts env _ _ _ _).2.2.1]
      rfl

end Agreement

/-! ## Frames only one of them reads -/

/-- A case whose code never throws, run without a control port. -/
def plainEnv : Env Unit Unit where
  listener := fun s _ => (s, none)
  markerListener := none
  processPacket := fun s _ => .done s

/-- A datagram that both readers read. -/
theorem readers_agree_on_datagram :
    plainEnv.controlPlanePort = 0 ∧
      (∃ uf, .event (.udp uf) none ∈ (processFrame plainEnv (.fresh () ()) ackFrame).calls ∧
        Names (summarizeEthernetFrame ackFrame.bytes ackFrame.len) .kUdp uf.srcIp uf.dstIp
          uf.udp.srcPort uf.udp.dstPort) := by
  have hversion : ∀ eth, decodeEthernet ackFrame.bytes = some eth →
      eth.payload.getD 0 0 >>> 4 = 4 := by
    intro eth heth
    cases heth
    decide
  have hmem : .event (.udp _) none ∈ (processFrame plainEnv (.fresh () ()) ackFrame).calls :=
    List.mem_cons_of_mem _ (List.mem_singleton_self _)
  exact ⟨rfl, _, hmem,
    ((readers_agree (.fresh () ()) ackFrame rfl).1 hversion).1 _ _ hmem⟩

/-- The datagram behind a service tag, which the pipeline does not observe. -/
def serviceTagged : PcapFrame :=
  { ackFrame with
    bytes := ackFrame.bytes.take 12 ++ [0x88, 0xa8, 0, 5] ++ ackFrame.bytes.drop 12
    len := 46 }

/-- The datagram at the head of a longer frame that the capture cut. -/
def cutShort : PcapFrame := { ackFrame with len := 60 }

/-- A case whose code throws on the IPv4 header. -/
def throwingEnv : Env Unit Unit :=
  { plainEnv with
    listener := fun s ev => (s, match ev with
      | .ipv4 _ => some .other
      | _ => none) }

/-- The frame's summary names the ports of an unfragmented packet, of which the pipeline neither
hands on a transport frame nor counts the frame as undissectable. -/
def Overlooked (env : Env Unit Unit) (f : PcapFrame) : Prop :=
  env.controlPlanePort = 0 ∧ Unfragmented f.bytes ∧
    (summarizeEthernetFrame f.bytes f.len).hasPorts = true ∧
    (∀ c ∈ (processFrame env (.fresh () ()) f).calls, ¬ IsTransport c) ∧
    (processFrame env (.fresh () ()) f).stats.framesUndissectable = 0

/-- Three such frames: behind another tag than 802.1Q, cut short by the capture, and one on whose IPv4
header the case's own code throws. -/
theorem overlooked_frames :
    Overlooked plainEnv serviceTagged ∧ Overlooked plainEnv cutShort ∧
      Overlooked throwingEnv ackFrame := by
  have hack : Unfragmented ackFrame.bytes := by
    intro off hoff
    cases hoff
    decide
  refine ⟨⟨rfl, ?_, by decide, (by intro c hc; cases hc), rfl⟩,
    ⟨rfl, hack, by decide, (by intro c hc; cases hc), rfl⟩, ⟨rfl, hack, by decide, ?_, rfl⟩⟩
  · intro off hoff
    cases hoff
    decide
  · intro c hc
    cases hc with
    | head => exact id
    | tail _ hc => cases hc

end Tc8Harness.Capture
