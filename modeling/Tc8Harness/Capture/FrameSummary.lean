import Tc8Harness.Dissect.Pipeline
import Tc8Harness.Someip.Wire

/-!
# The frame summary

`src/capture/frame_summary.cpp`: the addressing of a captured Ethernet frame, read beside the capture
loop without decoding the frame. It is a second reader of the bytes the packet pipeline dissects, with
bounds of its own: it steps over two tags of three kinds where the pipeline reads one 802.1Q tag, and
it goes by the captured length where the pipeline goes by the Total Length.

`Carries` says where both find a frame's payload, `summary_of_header` what the summary then holds, and
`portsAt_of_hasPorts` what has to be in a frame for its summary to name ports.
-/

namespace Tc8Harness.Capture

open Wire Dissect

/-! ## The summary -/

inductive SummaryProto where
  | kOther
  | kUdp
  | kTcp
  deriving DecidableEq, Repr

structure FrameSummary where
  tUs : Int := 0
  wireLen : Nat := 0
  proto : SummaryProto := .kOther
  hasIps : Bool := false
  srcIpBe : UInt32 := 0
  dstIpBe : UInt32 := 0
  hasPorts : Bool := false
  srcPort : UInt16 := 0
  dstPort : UInt16 := 0
  deriving DecidableEq, Repr

def kEthHeader : Nat := 14
def kVlanTag : Nat := 4
def kEtherIpv4 : UInt16 := 0x0800
def kEtherArp : UInt16 := 0x0806
def kIpv4MinHeader : Nat := 20
def kArpIpv4Size : Nat := 28

def isVlanTpid (t : UInt16) : Bool := t == 0x8100 || t == 0x88a8 || t == 0x9100

/-- The tag loop of `summarizeEthernetFrame`, with the tags it may still step over: the offset of the
payload's type, or `none` when the captured bytes end within a tag. -/
def stepOverTags (data : List UInt8) : Nat → Nat → Option Nat
  | 0, off => some off
  | tags + 1, off =>
    if isVlanTpid (readBe16 data off) then
      if data.length < off + 2 + kVlanTag then none
      else stepOverTags data tags (off + kVlanTag)
    else some off

/-- The ARP branch, with the packet at `l3`. -/
def summarizeArp (data : List UInt8) (l3 : Nat) (s : FrameSummary) : FrameSummary :=
  if l3 + kArpIpv4Size ≤ data.length ∧ readBe16 data l3 = 1 ∧ readBe16 data (l3 + 2) = kEtherIpv4 ∧
      data.getD (l3 + 4) 0 = 6 ∧ data.getD (l3 + 5) 0 = 4 then
    { s with
      hasIps := true
      srcIpBe := copy32 data (l3 + 14)
      dstIpBe := copy32 data (l3 + 24) }
  else s

/-- The ports behind a header of `ihl` bytes, when the captured bytes of a first fragment reach them. -/
def summarizePorts (data : List UInt8) (l3 ihl : Nat) (s : FrameSummary) : FrameSummary :=
  let firstFragment := readBe16 data (l3 + 6) &&& 0x1fff = 0
  let l4 := l3 + ihl
  if firstFragment ∧ kIpv4MinHeader ≤ ihl ∧ l4 + 4 ≤ data.length then
    { s with
      hasPorts := true
      srcPort := readBe16 data l4
      dstPort := readBe16 data (l4 + 2) }
  else s

/-- The IPv4 branch, with the header at `l3`. -/
def summarizeIpv4 (data : List UInt8) (l3 : Nat) (s : FrameSummary) : FrameSummary :=
  let ihl := (data.getD l3 0 &&& 0x0f).toNat * 4
  let s := { s with hasIps := true, srcIpBe := copy32 data (l3 + 12), dstIpBe := copy32 data (l3 + 16) }
  let proto := data.getD (l3 + 9) 0
  if proto = kIpProtoUdp then summarizePorts data l3 ihl { s with proto := .kUdp }
  else if proto = kIpProtoTcp then summarizePorts data l3 ihl { s with proto := .kTcp }
  else s

def summarizeEthernetFrame (data : List UInt8) (wireLen : Nat) : FrameSummary :=
  let s : FrameSummary := { wireLen := wireLen }
  if data.length < kEthHeader then s
  else
    match stepOverTags data 2 12 with
    | none => s
    | some off =>
      let l3 := off + 2
      if readBe16 data off = kEtherArp then summarizeArp data l3 s
      else if readBe16 data off ≠ kEtherIpv4 ∨ data.length < l3 + kIpv4MinHeader ∨
          data.getD l3 0 >>> 4 ≠ 4 then s
      else summarizeIpv4 data l3 s

/-- The record's summary, stamped with its capture time in microseconds. -/
def summarizePcapRecord (f : PcapFrame) (nano : Bool) : FrameSummary :=
  { summarizeEthernetFrame f.bytes f.len with
    tUs := f.tvSec * 1000000 + if nano then f.tvUsec.tdiv 1000 else f.tvUsec }

/-! ## The two readers at the link layer -/

section Link

variable {data : List UInt8} {eth : EthernetFrame}

/-- The frame carries no tag the summary would step over, or one 802.1Q tag and no other. -/
def AtMostOneDot1Q (data : List UInt8) : Prop :=
  isVlanTpid (readBe16 data 12) = false ∨
    readBe16 data 12 = kEtherTypeDot1Q ∧ isVlanTpid (readBe16 data 16) = false

/-- Where the payload stands that an Ethernet header announces, and of which type it is. -/
structure Carries (data : List UInt8) (off : Nat) (eth : EthernetFrame) : Prop where
  header : kEthHeader ≤ data.length
  located : stepOverTags data 2 12 = some off
  etherType : readBe16 data off = eth.etherType
  payload : data.drop (off + 2) = eth.payload
  inside : off + 2 ≤ data.length

namespace Carries

variable {off : Nat} (h : Carries data off eth) (i : Nat)

include h

theorem readBe16_at : readBe16 data (off + 2 + i) = readBe16 eth.payload i := by
  rw [readBe16, readBe16, Someip.readBe_drop, h.payload]

theorem copy32_at : copy32 data (off + 2 + i) = copy32 eth.payload i := by
  rw [copy32, copy32, ← List.drop_drop, h.payload]

theorem getD_at : data.getD (off + 2 + i) 0 = eth.payload.getD i 0 := by
  rw [← h.payload, List.getD_eq_getElem?_getD, List.getD_eq_getElem?_getD, List.getElem?_drop]

omit i in
theorem length_eq : data.length = off + 2 + eth.payload.length := by
  have hinside := h.inside
  rw [← h.payload, List.length_drop]
  omega

end Carries

theorem isVlanTpid_dot1Q : isVlanTpid kEtherTypeDot1Q = true := rfl

theorem stepOverTags_stop {tags off : Nat} (h : isVlanTpid (readBe16 data off) = false) :
    stepOverTags data tags off = some off := by
  cases tags with
  | zero => rfl
  | succ tags => rw [stepOverTags, h, if_neg Bool.false_ne_true]

/-- What the pipeline finds behind one 802.1Q tag at most, the summary finds too. -/
theorem carries_of_decodeEthernet (h : decodeEthernet data = some eth)
    (htype : isVlanTpid eth.etherType = false) : ∃ off, Carries data off eth := by
  unfold decodeEthernet at h
  split at h
  · cases h
  next hshort =>
    have hheader : kEthHeader ≤ data.length := Nat.le_of_not_lt hshort
    dsimp only at h
    split at h
    · next htag =>
      split at h
      · cases h
      next htagged =>
        cases h
        have hlen : ¬ data.length < 12 + 2 + kVlanTag := htagged
        refine ⟨16, hheader, ?_, rfl, rfl, Nat.le_of_not_lt htagged⟩
        rw [stepOverTags, htag, if_pos isVlanTpid_dot1Q, if_neg hlen]
        exact stepOverTags_stop htype
    · cases h
      exact ⟨12, hheader, stepOverTags_stop htype, rfl, rfl, hheader⟩

/-- And the other way round, when the frame has no other tag. -/
theorem carries_of_stepOverTags {off : Nat} (hheader : kEthHeader ≤ data.length)
    (htags : AtMostOneDot1Q data) (hoff : stepOverTags data 2 12 = some off) :
    ∃ eth, decodeEthernet data = some eth ∧ Carries data off eth := by
  have hlong : ¬ data.length < kEthernetHeaderLen := Nat.not_lt.2 hheader
  unfold decodeEthernet
  rw [if_neg hlong]
  dsimp only
  rcases htags with hnone | ⟨htag, hother⟩
  · have hne : readBe16 data 12 ≠ kEtherTypeDot1Q := by
      intro heq
      rw [heq] at hnone
      exact absurd hnone (by decide)
    obtain rfl : 12 = off := Option.some.inj ((stepOverTags_stop hnone).symm.trans hoff)
    rw [if_neg hne]
    exact ⟨_, rfl, hheader, hoff, rfl, rfl, hheader⟩
  · have hstep := hoff
    rw [stepOverTags, htag, if_pos isVlanTpid_dot1Q] at hstep
    split at hstep
    · cases hstep
    next hlen =>
      obtain rfl : 16 = off := Option.some.inj ((stepOverTags_stop hother).symm.trans hstep)
      have htagged : ¬ data.length < kEthernetHeaderLen + kDot1QTagLen := hlen
      rw [if_pos htag, if_neg htagged]
      exact ⟨_, rfl, hheader, hoff, rfl, rfl, Nat.le_of_not_lt hlen⟩

end Link

/-! ## The two readers at the network layer -/

section Network

variable {data : List UInt8} {off : Nat} {eth : EthernetFrame} {ip : Ipv4Header} {p : List UInt8}

/-- The fields of a decoded header that the summary reads, and where its payload starts. -/
structure HeaderAt (p : List UInt8) (ip : Ipv4Header) : Prop where
  fixed : kIpv4MinHeader ≤ p.length
  headerLen : ip.headerLen = (p.getD 0 0 &&& 0x0f).toNat * 4
  options : kIpv4MinHeader ≤ ip.headerLen
  inside : ip.headerLen ≤ p.length
  protocol : ip.protocol = p.getD 9 0
  fragmentOffset : ip.fragmentOffset = readBe16 p 6 &&& 0x1fff
  srcBe : ip.srcBe = copy32 p 12
  dstBe : ip.dstBe = copy32 p 16

theorem headerAt_of_decode (h : decodeIpv4Header p = some ip) : HeaderAt p ip := by
  unfold decodeIpv4Header at h
  split at h
  · cases h
  next hfixed =>
    dsimp only at h
    split at h
    · cases h
    next hlen =>
      cases h
      rw [not_or] at hlen
      exact ⟨Nat.le_of_not_lt hfixed, rfl, Nat.le_of_not_lt hlen.1, Nat.le_of_not_lt hlen.2, rfl, rfl,
        rfl, rfl⟩

/-- A header whose length field fits what there is decodes. -/
theorem exists_decodeIpv4Header (hmin : kIpv4MinHeader ≤ (p.getD 0 0 &&& 0x0f).toNat * 4)
    (hinside : (p.getD 0 0 &&& 0x0f).toNat * 4 ≤ p.length) : ∃ ip, decodeIpv4Header p = some ip := by
  have hfixed : ¬ p.length < kIpv4FixedHeaderLen := Nat.not_lt.2 (hmin.trans hinside)
  have hlen : ¬ ((p.getD 0 0 &&& 0x0F).toNat * 4 < kIpv4FixedHeaderLen ∨
      (p.getD 0 0 &&& 0x0F).toNat * 4 > p.length) :=
    not_or.2 ⟨Nat.not_lt.2 hmin, Nat.not_lt.2 hinside⟩
  unfold decodeIpv4Header
  rw [if_neg hfixed]
  dsimp only
  rw [if_neg hlen]
  exact ⟨_, rfl⟩

/-- The transport protocols whose ports the summary reads. -/
def summaryProto (protocol : UInt8) : SummaryProto :=
  if protocol = kIpProtoUdp then .kUdp else if protocol = kIpProtoTcp then .kTcp else .kOther

/-- The summary of a frame in which both readers find the same IPv4 header: its addresses, and the
ports when it is a first fragment that reaches them. -/
theorem summary_of_header (hcarries : Carries data off eth) (htype : eth.etherType = kEtherTypeIpv4)
    (hip : decodeIpv4Header eth.payload = some ip) (hversion : eth.payload.getD 0 0 >>> 4 = 4)
    (hproto : summaryProto ip.protocol ≠ .kOther) (hfirst : ip.fragmentOffset = 0)
    (hreach : ip.headerLen + 4 ≤ eth.payload.length) (wireLen : Nat) :
    summarizeEthernetFrame data wireLen =
      { wireLen := wireLen
        proto := summaryProto ip.protocol
        hasIps := true
        srcIpBe := ip.srcBe
        dstIpBe := ip.dstBe
        hasPorts := true
        srcPort := readBe16 eth.payload ip.headerLen
        dstPort := readBe16 eth.payload (ip.headerLen + 2) } := by
  have hat := headerAt_of_decode hip
  have hlength := hcarries.length_eq
  have hfixed := hat.fixed
  have hzero : data.getD (off + 2) 0 = eth.payload.getD 0 0 := hcarries.getD_at 0
  have hports : ∀ s, summarizePorts data (off + 2) ip.headerLen s = { s with
      hasPorts := true
      srcPort := readBe16 eth.payload ip.headerLen
      dstPort := readBe16 eth.payload (ip.headerLen + 2) } := by
    intro s
    unfold summarizePorts
    rw [if_pos, hcarries.readBe16_at, Nat.add_assoc (off + 2), hcarries.readBe16_at]
    refine ⟨?_, hat.options, by omega⟩
    rw [hcarries.readBe16_at, ← hat.fragmentOffset]
    exact hfirst
  have hread : ¬ (readBe16 data off ≠ kEtherIpv4 ∨ data.length < off + 2 + kIpv4MinHeader ∨
      data.getD (off + 2) 0 >>> 4 ≠ 4) := by
    rw [hcarries.etherType, htype, hzero]
    exact not_or.2 ⟨not_not.2 rfl, not_or.2 ⟨by omega, not_not.2 hversion⟩⟩
  unfold summarizeEthernetFrame
  rw [if_neg (Nat.not_lt.2 hcarries.header), hcarries.located]
  dsimp only
  rw [if_neg (by rw [hcarries.etherType, htype]; decide), if_neg hread]
  unfold summarizeIpv4
  dsimp only
  rw [hzero, ← hat.headerLen, hcarries.getD_at, hcarries.copy32_at, hcarries.copy32_at,
    ← hat.protocol, ← hat.srcBe, ← hat.dstBe, hports, hports]
  unfold summaryProto at hproto ⊢
  split_ifs at hproto ⊢ with hudp htcp
  · rfl
  · rfl
  · exact absurd rfl hproto

/-- What has to be in a frame for the summary to name ports. -/
structure PortsAt (data : List UInt8) (off : Nat) : Prop where
  header : kEthHeader ≤ data.length
  located : stepOverTags data 2 12 = some off
  etherType : readBe16 data off = kEtherIpv4
  protocol : summaryProto (data.getD (off + 2 + 9) 0) ≠ .kOther
  options : kIpv4MinHeader ≤ (data.getD (off + 2) 0 &&& 0x0f).toNat * 4
  reach : off + 2 + (data.getD (off + 2) 0 &&& 0x0f).toNat * 4 + 4 ≤ data.length

theorem portsAt_of_hasPorts {wireLen : Nat}
    (h : (summarizeEthernetFrame data wireLen).hasPorts = true) : ∃ off, PortsAt data off := by
  have hports : ∀ {l3 ihl : Nat} {s : FrameSummary}, s.hasPorts = false →
      (summarizePorts data l3 ihl s).hasPorts = true →
      kIpv4MinHeader ≤ ihl ∧ l3 + ihl + 4 ≤ data.length := by
    intro l3 ihl s hs hp
    unfold summarizePorts at hp
    dsimp only at hp
    split at hp
    · next hreach => exact hreach.2
    · rw [hs] at hp
      cases hp
  unfold summarizeEthernetFrame at h
  dsimp only at h
  split at h
  · cases h
  next hshort =>
    split at h
    · cases h
    next off hoff =>
      split at h
      · unfold summarizeArp at h
        split at h <;> cases h
      next harp =>
        split at h
        · cases h
        next hread =>
          rw [not_or, not_not] at hread
          unfold summarizeIpv4 at h
          dsimp only at h
          split at h
          · next hudp =>
            obtain ⟨hmin, hreach⟩ := hports rfl h
            refine ⟨off, Nat.le_of_not_lt hshort, hoff, hread.1, ?_, hmin, hreach⟩
            rw [summaryProto, if_pos hudp]
            decide
          · split at h
            · next hudp htcp =>
              obtain ⟨hmin, hreach⟩ := hports rfl h
              refine ⟨off, Nat.le_of_not_lt hshort, hoff, hread.1, ?_, hmin, hreach⟩
              rw [summaryProto, if_neg hudp, if_pos htcp]
              decide
            · cases h

end Network

end Tc8Harness.Capture
