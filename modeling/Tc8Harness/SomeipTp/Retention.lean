import Mathlib.Order.Bounds.Basic
import Tc8Harness.SomeipTp.Isolation

/-!
# What the reassembler holds on to

The memory bound of the class comment in `someiptp.h`: `Pending.Bounded` says it of one transfer, and
`run_bounded` of every state a sequence of calls reaches. A refused segment is to end its transfer as
well; `error_drops_iff` says which refusals do. Those before the lookup do not: a frame whose Length
is too small or too large, or that promises more and is empty or not in steps of 16.
-/

namespace Tc8Harness.SomeipTp

open ByteBuffer

/-! ## One transfer -/

/-- Where the recorded segments end. -/
def Pending.ends (p : Pending) : Set Nat :=
  {e | ∃ off seg, p.segs[off]? = some seg ∧ off + seg.len = e}

/-- The buffer reaches as far as the furthest recorded segment and no further than a message may. -/
structure Pending.Bounded (p : Pending) (maxMessage : Nat) : Prop where
  buf_le : p.buf.length ≤ maxMessage
  buf_eq : IsGreatest p.ends p.buf.length
  aligned : ∀ {off seg}, p.segs[off]? = some seg → off % kOffsetGranularity = 0
  within : ∀ {off seg}, p.segs[off]? = some seg → off + seg.len ≤ p.buf.length
  extent : p.lastSeen = true → ∀ {off seg}, p.segs[off]? = some seg → off + seg.len ≤ p.total

/-- As `Bounded`, of a transfer that may have nothing recorded yet. -/
structure Pending.Fits (p : Pending) (maxMessage : Nat) : Prop where
  buf_le : p.buf.length ≤ maxMessage
  reached : p.buf.length = 0 ∨ p.buf.length ∈ p.ends
  aligned : ∀ {off seg}, p.segs[off]? = some seg → off % kOffsetGranularity = 0
  within : ∀ {off seg}, p.segs[off]? = some seg → off + seg.len ≤ p.buf.length
  extent : p.lastSeen = true → ∀ {off seg}, p.segs[off]? = some seg → off + seg.len ≤ p.total

namespace Pending

variable {p p' : Pending} {s : TpSegment} {maxMessage : Nat}

theorem Bounded.fits (h : p.Bounded maxMessage) : p.Fits maxMessage :=
  ⟨h.buf_le, .inr h.buf_eq.1, h.aligned, h.within, h.extent⟩

theorem Fits.fresh (hdr : MessageHeader) (maxMessage : Nat) :
    ({ header := hdr } : Pending).Fits maxMessage := by
  refine ⟨Nat.zero_le _, .inl rfl, ?_, ?_, ?_⟩ <;> simp

/-- The buffer grows to the end of a new segment; a repeat ends within it. -/
theorem length_accepted (h : p.Fits maxMessage) (hp : Accepted p s p') :
    p'.buf.length = max p.buf.length (s.offset + s.data.length) := by
  rcases hp.buf with ⟨hdup, hbuf⟩ | ⟨-, hbuf⟩
  · rw [hbuf, Nat.max_eq_left (h.within hdup)]
  · rw [hbuf, length_writeAt]

/-- The furthest end is that of the new segment or the old one, which is still recorded. -/
theorem max_mem_ends (h : p.Fits maxMessage) (hp : Accepted p s p') :
    max p.buf.length (s.offset + s.data.length) ∈ p'.ends := by
  have hnew : s.offset + s.data.length ∈ p'.ends :=
    ⟨s.offset, ⟨s.data.length, s.more⟩, by rw [hp.segs, if_pos rfl], rfl⟩
  rcases Nat.le_total p.buf.length (s.offset + s.data.length) with hle | hle
  · rwa [Nat.max_eq_right hle]
  rw [Nat.max_eq_left hle]
  rcases h.reached with hzero | ⟨off, seg, hseg, hend⟩
  · have hend : s.offset + s.data.length = p.buf.length := by omega
    rwa [hend] at hnew
  by_cases hoff : s.offset = off
  · rcases hp.buf with ⟨hdup, -⟩ | ⟨hfree, -⟩
    · rw [← hoff, hdup, Option.some.injEq] at hseg
      rwa [← hend, ← hoff, ← hseg]
    · rw [← hoff, hfree] at hseg
      cases hseg
  · exact ⟨off, seg, by rw [hp.segs, if_neg hoff, hseg], hend⟩

/-- **One accepted segment** leaves a bounded transfer. -/
theorem Fits.accept (h : p.Fits maxMessage) (haccept : p.accept s = some p')
    (hfit : s.offset + s.data.length ≤ maxMessage) (h16 : s.offset % kOffsetGranularity = 0) :
    p'.Bounded maxMessage := by
  have hp := p.accept_accepted haccept
  have hlen := length_accepted h hp
  -- A record of the new transfer is the segment's own or one of the old transfer.
  have hsplit : ∀ {off seg}, p'.segs[off]? = some seg →
      (off = s.offset ∧ seg.len = s.data.length) ∨ p.segs[off]? = some seg := by
    intro off seg hseg
    rw [hp.segs] at hseg
    split at hseg
    · next hoff =>
      cases hseg
      exact .inl ⟨hoff.symm, rfl⟩
    · exact .inr hseg
  have hwithin : ∀ {off seg}, p'.segs[off]? = some seg → off + seg.len ≤ p'.buf.length := by
    intro off seg hseg
    rw [hlen]
    rcases hsplit hseg with ⟨rfl, hseglen⟩ | hold
    · rw [hseglen]
      exact Nat.le_max_right _ _
    · exact Nat.le_trans (h.within hold) (Nat.le_max_left _ _)
  constructor
  case buf_le =>
    rw [hlen]
    exact Nat.max_le.2 ⟨h.buf_le, hfit⟩
  case buf_eq =>
    refine ⟨by rw [hlen]; exact max_mem_ends h hp, ?_⟩
    rintro e ⟨off, seg, hseg, rfl⟩
    exact hwithin hseg
  case aligned =>
    intro off seg hseg
    rcases hsplit hseg with ⟨rfl, -⟩ | hold
    · exact h16
    · exact h.aligned hold
  case within => exact hwithin
  case extent =>
    intro hseen off seg hseg
    cases hmore : s.more with
    | false => exact (hp.last hmore).2.2 off seg hseg
    | true =>
      obtain ⟨hl, htotal⟩ := hp.more hmore
      rw [hl] at hseen
      rw [htotal]
      rcases hsplit hseg with ⟨rfl, hseglen⟩ | hold
      · rw [hseglen]
        exact (hp.extent hseen).1
      · exact h.extent hseen hold

end Pending

/-! ## The reassembler -/

theorem decodeSegment_aligned {bytes : List UInt8} {s : TpSegment} (h : decodeSegment bytes = some s) :
    s.offset % kOffsetGranularity = 0 := by
  have hword : ∀ tp : UInt32, (tp &&& ~~~(UInt32.ofNat (kOffsetGranularity - 1))).toNat % 16 = 0 := by
    intro tp
    rw [UInt32.toNat_and]
    change (tp.toNat &&& 4294967280) % 2 ^ 4 = 0
    rw [Nat.and_mod_two_pow]
    exact Nat.and_zero _
  simp only [decodeSegment, Option.ite_none_left_eq_some, Option.some.injEq] at h
  obtain ⟨-, -, -, -, -, rfl⟩ := h
  dsimp only [parseTpHeader]
  split
  · rfl
  · exact hword _

/-- A segment that was not refused fits a message, and found a transfer or room for one. -/
theorem feedSegment_room {r : Reassembler} {s : TpSegment}
    (h : (r.feedSegment s).1.status ≠ .kError) :
    s.offset + s.data.length ≤ r.maxMessage ∧
      (r.pending[s.key]? = none → r.pending.size < r.maxConcurrent) := by
  unfold Reassembler.feedSegment at h
  split at h
  · exact absurd rfl h
  · next hfit =>
    refine ⟨Nat.le_of_not_lt hfit, fun hnone => ?_⟩
    rw [hnone] at h
    dsimp only at h
    split at h
    · exact absurd rfl h
    · next hroom => exact Nat.lt_of_not_le hroom

structure Reassembler.Bounded (r : Reassembler) : Prop where
  size_le : r.pending.size ≤ r.maxConcurrent
  entry : ∀ {key : Nat} {p : Pending}, r.pending[key]? = some p → p.Bounded r.maxMessage

namespace Reassembler.Bounded

variable {r : Reassembler}

theorem transfer (h : r.Bounded) (s : TpSegment) : (r.transfer s).Fits r.maxMessage := by
  unfold Reassembler.transfer
  cases hfind : r.pending[s.key]? with
  | none => exact Pending.Fits.fresh s.header r.maxMessage
  | some p => exact (h.entry hfind).fits

theorem drop (h : r.Bounded) (key : Nat) : (r.drop key).Bounded := by
  refine ⟨Nat.le_trans Std.TreeMap.size_erase_le h.size_le, fun {k p} hfind => ?_⟩
  simp only [Reassembler.drop, Std.TreeMap.getElem?_erase] at hfind
  split at hfind
  · cases hfind
  · exact h.entry hfind

theorem insert (h : r.Bounded) {key : Nat} {p : Pending} (hp : p.Bounded r.maxMessage)
    (hroom : r.pending[key]? = none → r.pending.size < r.maxConcurrent) :
    ({ r with pending := r.pending.insert key p } : Reassembler).Bounded := by
  refine ⟨?_, fun {k q} hfind => ?_⟩
  · change (r.pending.insert key p).size ≤ r.maxConcurrent
    rw [Std.TreeMap.size_insert]
    split
    · exact h.size_le
    · next habsent =>
      exact hroom (Std.TreeMap.getElem?_eq_none (by simpa using habsent))
  · simp only [Std.TreeMap.getElem?_insert] at hfind
    split at hfind
    · cases hfind
      exact hp
    · exact h.entry hfind

theorem feed (h : r.Bounded) (segment : Buffer) : (r.feed segment).2.Bounded := by
  cases segment with
  | null len => exact h
  | bytes bytes =>
    cases hdec : decodeSegment bytes with
    | none =>
      simp only [Reassembler.feed, hdec]
      exact h
    | some s =>
      simp only [Reassembler.feed, hdec]
      have hroom := feedSegment_room (r := r) (s := s)
      have hstep := feedSegment_cases r s
      generalize r.feedSegment s = out at hroom hstep
      cases hstep with
      | full hnone hfull => exact h
      | dropped => exact h.drop s.key
      | completed hhdr haccept hdone => exact h.drop s.key
      | placed hhdr haccept hopen =>
        obtain ⟨hfit, hfree⟩ := hroom (by simp)
        exact h.insert ((h.transfer s).accept haccept hfit (decodeSegment_aligned hdec)) hfree

theorem mainFunction (h : r.Bounded) (elapsed : Int) : (r.mainFunction elapsed).2.Bounded := by
  constructor
  case size_le =>
    refine Nat.le_trans (Nat.le_trans Std.TreeMap.size_filter_le_size ?_) h.size_le
    rw [Std.TreeMap.size_map]
  case entry =>
    intro key q hfind
    rw [Reassembler.getElem?_mainFunction, Option.filter_eq_some_iff, Option.map_eq_some_iff] at hfind
    obtain ⟨⟨p, hp, rfl⟩, -⟩ := hfind
    obtain ⟨hle, heq, haligned, hwithin, hextent⟩ := h.entry hp
    exact ⟨hle, heq, haligned, hwithin, hextent⟩

theorem step (h : r.Bounded) (op : Op) : (r.step op).Bounded := by
  cases op with
  | feed segment => exact h.feed segment
  | mainFunction elapsed => exact h.mainFunction elapsed

theorem run (h : r.Bounded) (ops : List Op) : (r.run ops).Bounded := by
  induction ops generalizing r with
  | nil => exact h
  | cons op ops ih => exact ih (h.step op)

end Reassembler.Bounded

theorem Reassembler.run_params (r : Reassembler) (ops : List Op) :
    (r.run ops).maxMessage = r.maxMessage ∧ (r.run ops).maxConcurrent = r.maxConcurrent := by
  induction ops generalizing r with
  | nil => exact ⟨rfl, rfl⟩
  | cons op ops ih =>
    have hstep : (r.step op).maxMessage = r.maxMessage ∧ (r.step op).maxConcurrent = r.maxConcurrent := by
      cases op with
      | feed segment =>
        obtain ⟨hmessage, hconcurrent, -⟩ := r.feed_params segment
        exact ⟨hmessage, hconcurrent⟩
      | mainFunction elapsed => exact ⟨rfl, rfl⟩
    obtain ⟨hmessage, hconcurrent⟩ := ih (r.step op)
    exact ⟨hmessage.trans hstep.1, hconcurrent.trans hstep.2⟩

/-- **Memory stays bounded.** Whatever is fed and however time passes, the reassembler holds no more
transfers than it may, each with a buffer that ends where its furthest segment does. -/
theorem run_bounded (maxMessage maxConcurrent : Nat) (timeout : Int) (ops : List Op) :
    let r := (Reassembler.fresh maxMessage maxConcurrent timeout).run ops
    r.pending.size ≤ maxConcurrent ∧
      ∀ (key : Nat) (p : Pending), r.pending[key]? = some p → p.Bounded maxMessage := by
  intro r
  have hfresh : (Reassembler.fresh maxMessage maxConcurrent timeout).Bounded :=
    ⟨Nat.zero_le _, fun hfind => by simp [Reassembler.fresh] at hfind⟩
  obtain ⟨hmessage, hconcurrent⟩ :=
    (Reassembler.fresh maxMessage maxConcurrent timeout).run_params ops
  have hbounded := hfresh.run ops
  refine ⟨hbounded.size_le.trans_eq hconcurrent, fun key p hfind => ?_⟩
  have hp := hbounded.entry hfind
  rwa [hmessage] at hp

/-! ## Refused segments -/

/-- The Length counts the bytes after it, all of them are there, and a segment that promises more has
some and in steps of the offset. -/
def WellFormedFrame (bytes : List UInt8) : Prop :=
  let length := (get32be (bytes.drop 4)).toNat
  let segLen := length - (kLengthCoveredHeaderBytes + kTpHeaderLen)
  kLengthCoveredHeaderBytes + kTpHeaderLen ≤ length ∧ kSegmentHeaderLen + segLen ≤ bytes.length ∧
    (get32be (bytes.drop kSomeipHeaderLen) &&& 1 ≠ 0 → segLen ≠ 0 ∧ segLen % kOffsetGranularity = 0)

instance (bytes : List UInt8) : Decidable (WellFormedFrame bytes) :=
  inferInstanceAs (Decidable (_ ∧ _))

theorem decodeSegment_isSome_iff {bytes : List UInt8} (hlen : kSegmentHeaderLen ≤ bytes.length)
    (htp : bytes.getD 14 0 &&& kMessageTypeTpFlag ≠ 0) :
    (decodeSegment bytes).isSome ↔ WellFormedFrame bytes := by
  have hmore : ((parseTpHeader (bytes.drop kSomeipHeaderLen)).getD ⟨0, false⟩).moreSegments =
      (get32be (bytes.drop kSomeipHeaderLen) &&& 1 != 0) := by
    have hheader : ¬ (bytes.drop kSomeipHeaderLen).length < kTpHeaderLen := by
      rw [List.length_drop]
      simp only [kSegmentHeaderLen, kSomeipHeaderLen, kTpHeaderLen] at hlen ⊢
      omega
    rw [parseTpHeader, if_neg hheader]
    rfl
  have hsub : ∀ n, n - kLengthCoveredHeaderBytes - kTpHeaderLen =
      n - (kLengthCoveredHeaderBytes + kTpHeaderLen) := fun n => Nat.sub_sub ..
  unfold decodeSegment WellFormedFrame
  rw [if_neg (Nat.not_lt.2 hlen)]
  dsimp only
  rw [if_neg htp, hmore, hsub]
  generalize (get32be (bytes.drop 4)).toNat = length
  generalize get32be (bytes.drop kSomeipHeaderLen) &&& 1 = flag
  split_ifs with hshort hcut hsteps
  · exact iff_of_false (by simp) fun hwf => absurd hwf.1 (Nat.not_le.2 hshort)
  · exact iff_of_false (by simp) fun hwf => absurd hwf.2.1 (Nat.not_le.2 hcut)
  · refine iff_of_false (by simp) fun hwf => ?_
    obtain ⟨hpos, hmod⟩ := hwf.2.2 (by simpa using hsteps.1)
    exact hsteps.2.elim hpos fun hne => hne hmod
  · refine iff_of_true rfl ⟨Nat.not_lt.1 hshort, Nat.not_lt.1 hcut, fun hflag => ?_⟩
    simpa [hflag] using hsteps

/-- **Which errors drop the transfer.** A frame of a pending transfer that `feed` answers with
`kError` ends the transfer exactly when the frame is well formed. -/
theorem error_drops_iff (r : Reassembler) (bytes : List UInt8)
    (hlen : kSegmentHeaderLen ≤ bytes.length) (htp : bytes.getD 14 0 &&& kMessageTypeTpFlag ≠ 0)
    (hpending : transferKey (get32be bytes) (get32be (bytes.drop 8)) ∈ r.pending) :
    ((r.feed (.bytes bytes)).1.status = .kError →
        transferKey (get32be bytes) (get32be (bytes.drop 8)) ∉ (r.feed (.bytes bytes)).2.pending) ↔
      WellFormedFrame bytes := by
  rw [← decodeSegment_isSome_iff hlen htp]
  cases hdec : decodeSegment bytes with
  | none =>
    simp only [Reassembler.feed, hdec]
    simp [hpending]
  | some s =>
    have hkey : transferKey (get32be bytes) (get32be (bytes.drop 8)) = s.key := by
      simp only [decodeSegment, Option.ite_none_left_eq_some, Option.some.injEq] at hdec
      obtain ⟨-, -, -, -, -, rfl⟩ := hdec
      rfl
    rw [hkey] at hpending ⊢
    simp only [Reassembler.feed, hdec, Option.isSome_some, iff_true]
    have hstep := feedSegment_cases r s
    generalize r.feedSegment s = out at hstep
    cases hstep with
    | full hnone hfull =>
      rw [← Std.TreeMap.isSome_getElem?_iff_mem, hnone] at hpending
      cases hpending
    | dropped =>
      intro herror
      simp [Reassembler.drop]
    | placed hhdr haccept hopen => simp
    | completed hhdr haccept hdone => simp

/-- A second last segment that ends elsewhere is refused and ends the transfer. -/
theorem error_drops_iff_second_last :
    let hdr : MessageHeader := ⟨0x12345678, 0x00010002, 1, 1, 0, 0⟩
    let r := (Reassembler.fresh 64 1 1000).run [.feed (.bytes (segmentFrame hdr 0 16 false [0xCD]))]
    let bytes := segmentFrame hdr 0 32 false [0xCD]
    (r.feed (.bytes bytes)).1.status = .kError ∧
      transferKey (get32be bytes) (get32be (bytes.drop 8)) ∉ (r.feed (.bytes bytes)).2.pending := by
  intro hdr r bytes
  have herror : (r.feed (.bytes bytes)).1.status = .kError := by decide +kernel
  exact ⟨herror, (error_drops_iff r bytes (by decide +kernel) (by decide +kernel) (by decide +kernel)).2
    (by decide +kernel) herror⟩

/-- A frame of the transfer whose Length leaves no room for the TP header is refused, and the transfer
stays. -/
theorem error_keeps_transfer :
    let hdr : MessageHeader := ⟨0x12345678, 0x00010002, 1, 1, 0, 0⟩
    let r := (Reassembler.fresh 64 1 1000).run [.feed (.bytes (segmentFrame hdr 0 16 false [0xCD]))]
    let bytes : List UInt8 :=
      [0x12, 0x34, 0x56, 0x78, 0, 0, 0, 11, 0, 1, 0, 2, 1, 1, 0x20, 0, 0, 0, 0, 0]
    kSegmentHeaderLen ≤ bytes.length ∧ bytes.getD 14 0 &&& kMessageTypeTpFlag ≠ 0 ∧
      transferKey (get32be bytes) (get32be (bytes.drop 8)) ∈ r.pending ∧
      (r.feed (.bytes bytes)).1.status = .kError ∧
      transferKey (get32be bytes) (get32be (bytes.drop 8)) ∈ (r.feed (.bytes bytes)).2.pending := by
  decide +kernel

end Tc8Harness.SomeipTp
