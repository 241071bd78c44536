import Mathlib
import Tc8Harness.Lib.BigEndian

/-!
# SOME/IP-TP on the wire: the segmenter and the segment decoder

The wire half of `src/autosar/someiptp.cpp`. A segment frame is the 16-byte SOME/IP header, the
4-byte TP header and the segment's bytes; `Segmenter.segment` writes a message as a list of them and
`decodeSegment` is the part of `Reassembler::feed` that reads one, up to the first use of the
reassembler's state. `decodeSegment_segmentFrame` says the two agree on every frame the segmenter
can write, and `Segmenter.segment_eq` gives the segmenter's loop in closed form.

Byte strings are lists of `UInt8`, header fields have the width the source gives them, and a
`std::size_t` is a natural number: every sum the code forms from one stays far below `2 ^ 64`.
-/

namespace Tc8Harness.SomeipTp

open BigEndian

/-! ## Constants and headers -/

/-- The SOME/IP base header fields; the Length field is derived from the payload, not stored. -/
structure MessageHeader where
  messageId : UInt32
  requestId : UInt32
  protocolVersion : UInt8
  interfaceVersion : UInt8
  messageType : UInt8
  returnCode : UInt8
  deriving DecidableEq, Repr

def kSomeipHeaderLen : Nat := 16
def kTpHeaderLen : Nat := 4
def kSegmentHeaderLen : Nat := kSomeipHeaderLen + kTpHeaderLen
def kLengthCoveredHeaderBytes : Nat := 8
def kMessageTypeTpFlag : UInt8 := 0x20
def kOffsetGranularity : Nat := 16
def kMaxByteOffset : Nat := (2 ^ 28 - 1) * kOffsetGranularity

/-- Four big-endian bytes, as `put32be` pushes them. -/
def put32be (v : UInt32) : List UInt8 := toBE 4 v.toNat

/-- The big-endian word at the start of `p`. -/
def get32be (p : List UInt8) : UInt32 := UInt32.ofNat (ofBE (p.take 4))

@[simp] theorem length_put32be (v : UInt32) : (put32be v).length = 4 := length_toBE 4 _

theorem get32be_put32be (v : UInt32) (rest : List UInt8) : get32be (put32be v ++ rest) = v := by
  have hv : v.toNat < 256 ^ 4 := v.toNat_lt
  unfold get32be put32be
  rw [ofBE_take_toBE hv, UInt32.ofNat_toNat]

/-- The routing key of a transfer: `message_id << 32 | request_id`. -/
def transferKey (messageId requestId : UInt32) : Nat :=
  messageId.toNat <<< 32 ||| requestId.toNat

theorem transferKey_eq (m r : UInt32) : transferKey m r = m.toNat * 2 ^ 32 + r.toNat := by
  have hr : r.toNat < 2 ^ 32 := r.toNat_lt
  rw [transferKey, ← Nat.shiftLeft_add_eq_or_of_lt hr, Nat.shiftLeft_eq]

/-- Two transfers share a key only when they share both ids. -/
theorem transferKey_inj {m r m' r' : UInt32} (h : transferKey m r = transferKey m' r') :
    m = m' ∧ r = r' := by
  rw [transferKey_eq, transferKey_eq] at h
  have hr : r.toNat < 2 ^ 32 := r.toNat_lt
  have hr' : r'.toNat < 2 ^ 32 := r'.toNat_lt
  exact ⟨UInt32.toNat_inj.1 (by omega), UInt32.toNat_inj.1 (by omega)⟩

/-! ## The TP header word -/

structure TpSegmentHeader where
  offset : Nat
  moreSegments : Bool
  deriving DecidableEq, Repr

/-- `parseTpHeader`: `none` when fewer than four bytes are there. The low four bits hold Reserved
and More-Segments and are masked off the offset. -/
def parseTpHeader (tpHeader : List UInt8) : Option TpSegmentHeader :=
  if tpHeader.length < kTpHeaderLen then none
  else
    let tp := get32be tpHeader
    some
      { offset := (tp &&& ~~~(UInt32.ofNat (kOffsetGranularity - 1))).toNat
        moreSegments := (tp &&& 1) != 0 }

/-- The TP header word the segmenter writes. -/
def tpWord (offset : Nat) (reserved : UInt8) (more : Bool) : UInt32 :=
  UInt32.ofNat offset ||| ((reserved &&& 0x7).toUInt32 <<< 1) ||| (if more then 1 else 0)

private theorem and_granularity (n : Nat) (h : n < 2 ^ 32) : n &&& 4294967280 = n / 16 * 16 := by
  have hmask : (4294967280 : Nat) = (2 ^ 28 - 1) <<< 4 := by decide
  have hsplit : n / 16 * 16 = (n >>> 4) <<< 4 := by
    rw [Nat.shiftRight_eq_div_pow, Nat.shiftLeft_eq]
  rw [hmask, hsplit]
  apply Nat.eq_of_testBit_eq
  intro i
  rw [Nat.testBit_and, Nat.testBit_shiftLeft, Nat.testBit_shiftLeft, Nat.testBit_two_pow_sub_one,
    Nat.testBit_shiftRight]
  by_cases hi : 4 ≤ i
  · by_cases hi' : i - 4 < 28
    · simp [hi, hi', show 4 + (i - 4) = i by omega]
    · have hz : n.testBit i = false :=
        Nat.testBit_eq_false_of_lt (lt_of_lt_of_le h (Nat.pow_le_pow_right (by decide) (by omega)))
      simp [hi, hi', hz, show 4 + (i - 4) = i by omega]
  · simp [hi]

/-- On a 16-aligned offset the three fields of the TP word do not overlap. -/
theorem tpWord_toNat {offset : Nat} (reserved : UInt8) (more : Bool) (h16 : offset % 16 = 0)
    (hlt : offset < 2 ^ 32) :
    (tpWord offset reserved more).toNat = offset + reserved.toNat % 8 * 2 + more.toNat := by
  have h7 : (reserved &&& 0x7).toNat = reserved.toNat % 8 := by
    rw [UInt8.toNat_and]
    exact Nat.and_two_pow_sub_one_eq_mod _ 3
  have hsh : ((reserved &&& 0x7).toUInt32 <<< 1).toNat = reserved.toNat % 8 * 2 := by
    rw [UInt32.toNat_shiftLeft, UInt8.toNat_toUInt32, h7]
    simp only [UInt32.reduceToNat, Nat.reduceMod, Nat.shiftLeft_eq]
    omega
  have hm : (if more then (1 : UInt32) else 0).toNat = more.toNat := by cases more <;> rfl
  have hlow : reserved.toNat % 8 * 2 + more.toNat < 2 ^ 4 := by
    have := more.toNat_le
    omega
  have hor : reserved.toNat % 8 * 2 ||| more.toNat = reserved.toNat % 8 * 2 + more.toNat := by
    have := Nat.two_pow_add_eq_or_of_lt (i := 1) (b := more.toNat)
      (by have := more.toNat_le; omega) (reserved.toNat % 8)
    rw [show reserved.toNat % 8 * 2 = 2 ^ 1 * (reserved.toNat % 8) by omega]
    exact this.symm
  have hbase : offset = 2 ^ 4 * (offset / 16) := by omega
  unfold tpWord
  rw [UInt32.toNat_or, UInt32.toNat_or, hsh, hm, UInt32.toNat_ofNat_of_lt' hlt, Nat.or_assoc, hor,
    hbase, ← Nat.two_pow_add_eq_or_of_lt hlow]
  omega

/-- `parseTpHeader` reads back the offset and the flag and ignores the reserved bits. -/
theorem parseTpHeader_tpWord {offset : Nat} (reserved : UInt8) (more : Bool)
    (h16 : offset % 16 = 0) (hlt : offset < 2 ^ 32) (rest : List UInt8) :
    parseTpHeader (put32be (tpWord offset reserved more) ++ rest) =
      some { offset := offset, moreSegments := more } := by
  have hword := tpWord_toNat reserved more h16 hlt
  have hm := more.toNat_le
  have hoff : (tpWord offset reserved more &&& ~~~(UInt32.ofNat (kOffsetGranularity - 1))).toNat =
      offset := by
    rw [UInt32.toNat_and]
    have hmask : (~~~(UInt32.ofNat (kOffsetGranularity - 1))).toNat = 4294967280 := by decide
    rw [hmask, and_granularity _ (UInt32.toNat_lt _), hword]
    omega
  have hmore : ((tpWord offset reserved more &&& 1) != 0) = more := by
    have hbit : (tpWord offset reserved more &&& 1).toNat = more.toNat := by
      rw [UInt32.toNat_and, hword]
      change (offset + reserved.toNat % 8 * 2 + more.toNat) &&& 1 = _
      rw [Nat.and_one_is_mod]
      omega
    cases more
    · have : tpWord offset reserved false &&& 1 = 0 := UInt32.toNat_inj.1 hbit
      simp [this]
    · have : tpWord offset reserved true &&& 1 = 1 := UInt32.toNat_inj.1 hbit
      simp [this]
  have hlen : ¬ (put32be (tpWord offset reserved more) ++ rest).length < kTpHeaderLen := by
    simp [kTpHeaderLen]
  simp only [parseTpHeader, if_neg hlen, get32be_put32be, hoff, hmore]

/-! ## The segmenter -/

/-- What the segmenter throws, with its text. -/
inductive Thrown where
  | invalidArgument (what : String)
  | lengthError (what : String)
  deriving DecidableEq, Repr

/-- A `(pointer, length)` argument: a null pointer with some length, or real bytes. -/
inductive Buffer where
  | null (len : Nat)
  | bytes (data : List UInt8)
  deriving DecidableEq, Repr

def Buffer.len : Buffer → Nat
  | .null n => n
  | .bytes d => d.length

def Buffer.data : Buffer → List UInt8
  | .null _ => []
  | .bytes d => d

/-- A constructed segmenter: the constructor's checks are its fields. -/
structure Segmenter where
  maxSegmentPayload : Nat
  nonzero : maxSegmentPayload ≠ 0
  aligned : maxSegmentPayload % kOffsetGranularity = 0
  fits : maxSegmentPayload ≤ 0xFFFFFFFF - (kLengthCoveredHeaderBytes + kTpHeaderLen)

/-- The constructor. -/
def Segmenter.ofMax (maxSegmentPayload : Nat) : Except Thrown Segmenter :=
  if h : maxSegmentPayload = 0 ∨ maxSegmentPayload % kOffsetGranularity ≠ 0 then
    .error (.invalidArgument
      "tc8::someiptp::Segmenter: max_segment_payload must be a non-zero multiple of 16")
  else if hf : maxSegmentPayload > 0xFFFFFFFF - (kLengthCoveredHeaderBytes + kTpHeaderLen) then
    .error (.invalidArgument
      "tc8::someiptp::Segmenter: max_segment_payload overflows the SOME/IP Length field")
  else
    .ok ⟨maxSegmentPayload, fun h0 => h (.inl h0), by by_contra h16; exact h (.inr h16), by omega⟩

/-- A segmenter is what the constructor makes of its bound, and no other bound is accepted. -/
theorem Segmenter.ofMax_eq_ok_iff {n : Nat} {seg : Segmenter} :
    Segmenter.ofMax n = .ok seg ↔ seg.maxSegmentPayload = n := by
  constructor
  · intro h
    unfold Segmenter.ofMax at h
    split at h
    · cases h
    · split at h
      · cases h
      · cases h
        rfl
  · rintro rfl
    have hchecks : ¬ (seg.maxSegmentPayload = 0 ∨ seg.maxSegmentPayload % kOffsetGranularity ≠ 0) :=
      fun h => h.elim seg.nonzero fun hodd => hodd seg.aligned
    rw [Segmenter.ofMax, dif_neg hchecks, dif_neg (Nat.not_lt.2 seg.fits)]

/-- One frame: SOME/IP header, TP header, segment bytes. The Length field covers Request ID onward. -/
def segmentFrame (hdr : MessageHeader) (reserved : UInt8) (offset : Nat) (more : Bool)
    (data : List UInt8) : List UInt8 :=
  put32be hdr.messageId ++
  (put32be (UInt32.ofNat (kLengthCoveredHeaderBytes + kTpHeaderLen + data.length)) ++
  (put32be hdr.requestId ++
  ([hdr.protocolVersion, hdr.interfaceVersion, hdr.messageType ||| kMessageTypeTpFlag,
    hdr.returnCode] ++
  (put32be (tpWord offset reserved more) ++ data))))

/-- The `do`/`while` of `Segmenter::segment`, from `offset` on. -/
def Segmenter.segmentLoop (seg : Segmenter) (hdr : MessageHeader) (payload : List UInt8)
    (reserved : UInt8) (offset : Nat) : List (List UInt8) :=
  let segLen := min seg.maxSegmentPayload (payload.length - offset)
  let frame := segmentFrame hdr reserved offset (decide (offset + segLen < payload.length))
    ((payload.drop offset).take segLen)
  if offset + segLen < payload.length then
    frame :: seg.segmentLoop hdr payload reserved (offset + segLen)
  else [frame]
termination_by payload.length - offset
decreasing_by
  have := seg.nonzero
  omega

/-- `Segmenter::segment`. -/
def Segmenter.segment (seg : Segmenter) (hdr : MessageHeader) (payload : Buffer)
    (reserved : UInt8) : Except Thrown (List (List UInt8)) :=
  match payload with
  | .null len =>
    if len ≠ 0 then
      .error (.invalidArgument
        "tc8::someiptp::Segmenter::segment: null payload with len != 0")
    else .ok (seg.segmentLoop hdr [] reserved 0)
  | .bytes data =>
    if data.length ≠ 0 ∧
        (data.length - 1) / seg.maxSegmentPayload * seg.maxSegmentPayload > kMaxByteOffset then
      .error (.lengthError
        "tc8::someiptp::Segmenter::segment: payload too large for the SOME/IP-TP Offset field")
    else .ok (seg.segmentLoop hdr data reserved 0)

/-! ### The loop in closed form -/

/-- How many segments a payload of `n` bytes takes; an empty one takes one. -/
def Segmenter.count (seg : Segmenter) (n : Nat) : Nat := (n - 1) / seg.maxSegmentPayload + 1

/-- The bytes of segment `k`. -/
def Segmenter.chunk (seg : Segmenter) (payload : List UInt8) (k : Nat) : List UInt8 :=
  (payload.drop (k * seg.maxSegmentPayload)).take seg.maxSegmentPayload

/-- Frame `k` of a payload. -/
def Segmenter.frame (seg : Segmenter) (hdr : MessageHeader) (payload : List UInt8)
    (reserved : UInt8) (k : Nat) : List UInt8 :=
  segmentFrame hdr reserved (k * seg.maxSegmentPayload) (decide (k + 1 < seg.count payload.length))
    (seg.chunk payload k)

theorem Segmenter.length_chunk (seg : Segmenter) (payload : List UInt8) (k : Nat) :
    (seg.chunk payload k).length =
      min seg.maxSegmentPayload (payload.length - k * seg.maxSegmentPayload) := by
  simp [chunk]

/-- There is a segment after `k` exactly when `k`'s full extent does not reach the end. -/
theorem Segmenter.lt_count_iff (seg : Segmenter) {n k : Nat} :
    k + 1 < seg.count n ↔ (k + 1) * seg.maxSegmentPayload < n := by
  have hpos : 0 < seg.maxSegmentPayload := Nat.pos_of_ne_zero seg.nonzero
  unfold count
  rw [Nat.add_lt_add_iff_right, Nat.lt_iff_add_one_le, Nat.le_div_iff_mul_le hpos]
  have : 0 < (k + 1) * seg.maxSegmentPayload := Nat.mul_pos (Nat.succ_pos k) hpos
  omega

/-- A segment that has a successor is full. -/
theorem Segmenter.length_chunk_of_lt (seg : Segmenter) {payload : List UInt8} {k : Nat}
    (h : k + 1 < seg.count payload.length) :
    (seg.chunk payload k).length = seg.maxSegmentPayload := by
  rw [seg.lt_count_iff, Nat.succ_mul] at h
  rw [seg.length_chunk]
  omega

/-- The last segment ends where the payload ends. -/
theorem Segmenter.end_of_last (seg : Segmenter) {payload : List UInt8} {k : Nat}
    (hk : k < seg.count payload.length) (hlast : ¬ k + 1 < seg.count payload.length) :
    k * seg.maxSegmentPayload + (seg.chunk payload k).length = payload.length := by
  rw [seg.lt_count_iff, Nat.succ_mul] at hlast
  have hle : k * seg.maxSegmentPayload ≤ payload.length := by
    cases k with
    | zero => simp
    | succ k => exact Nat.le_of_lt ((seg.lt_count_iff).1 hk)
  rw [seg.length_chunk]
  omega

private theorem Segmenter.segmentLoop_eq (seg : Segmenter) (hdr : MessageHeader)
    (payload : List UInt8) (reserved : UInt8) :
    ∀ (fuel k : Nat), seg.count payload.length = k + fuel + 1 →
      seg.segmentLoop hdr payload reserved (k * seg.maxSegmentPayload) =
        (List.range' k (fuel + 1)).map (seg.frame hdr payload reserved) := by
  -- `take` past the end is harmless, so the loop's clipped length cuts the same bytes.
  have hclip : ∀ k, (payload.drop (k * seg.maxSegmentPayload)).take
      (min seg.maxSegmentPayload (payload.length - k * seg.maxSegmentPayload)) =
        seg.chunk payload k := by
    intro k
    rw [chunk, ← List.length_drop, ← List.take_take, List.take_length]
  intro fuel
  induction fuel with
  | zero =>
    intro k hk
    have hlast : ¬ k + 1 < seg.count payload.length := by omega
    have hend := seg.end_of_last (by omega) hlast
    rw [seg.length_chunk] at hend
    unfold segmentLoop
    simp only [hclip, hend, Nat.lt_irrefl, decide_false, if_false, Nat.zero_add, List.range'_one,
      List.map_cons, List.map_nil, frame, hlast]
  | succ fuel ih =>
    intro k hk
    have hmore : k + 1 < seg.count payload.length := by omega
    have hfull := seg.length_chunk_of_lt hmore
    rw [seg.length_chunk] at hfull
    have hlt := seg.lt_count_iff.1 hmore
    rw [Nat.succ_mul] at hlt
    have hnext := ih (k + 1) (by omega)
    rw [Nat.succ_mul] at hnext
    unfold segmentLoop
    simp only [hfull, hlt, if_true, decide_true, hnext, List.range'_succ (n := fuel + 1),
      List.map_cons, frame, hmore, chunk]

/-- The whole loop. -/
theorem Segmenter.segmentLoop_zero (seg : Segmenter) (hdr : MessageHeader) (payload : List UInt8)
    (reserved : UInt8) :
    seg.segmentLoop hdr payload reserved 0 =
      (List.range (seg.count payload.length)).map (seg.frame hdr payload reserved) := by
  have h := seg.segmentLoop_eq hdr payload reserved ((payload.length - 1) / seg.maxSegmentPayload) 0
    (by simp [count])
  rw [Nat.zero_mul] at h
  rw [h, List.range_eq_range', count]

/-- **The segmenter's output**: whatever it accepts, it writes `count` frames, frame `k` holding the
bytes from `k * max_segment_payload` on, and only the last with More-Segments clear. -/
theorem Segmenter.segment_eq (seg : Segmenter) (hdr : MessageHeader) (payload : Buffer)
    (reserved : UInt8) {frames : List (List UInt8)}
    (h : seg.segment hdr payload reserved = .ok frames) :
    frames = (List.range (seg.count payload.data.length)).map
        (seg.frame hdr payload.data reserved) ∧
      (seg.count payload.data.length - 1) * seg.maxSegmentPayload ≤ kMaxByteOffset := by
  cases payload with
  | null len =>
    simp only [segment] at h
    split at h
    · cases h
    · cases h
      exact ⟨seg.segmentLoop_zero hdr [] reserved, by simp [Buffer.data, count]⟩
  | bytes data =>
    simp only [segment] at h
    split at h
    · cases h
    · next hsmall =>
      cases h
      refine ⟨seg.segmentLoop_zero hdr data reserved, ?_⟩
      by_cases h0 : data.length = 0
      · simp [Buffer.data, count, h0]
      · have : (data.length - 1) / seg.maxSegmentPayload * seg.maxSegmentPayload ≤ kMaxByteOffset := by
          by_contra hbig
          exact hsmall ⟨h0, by omega⟩
        simpa [Buffer.data, count] using this

/-! ## Reading a segment frame -/

/-- A segment as `feed` sees it once the frame is decoded; the TP flag is cleared from `header`. -/
structure TpSegment where
  header : MessageHeader
  offset : Nat
  more : Bool
  data : List UInt8
  deriving DecidableEq, Repr

/-- The first half of `Reassembler::feed`: `none` is the source's early `return res` (`kError`),
before any transfer is looked up. -/
def decodeSegment (segment : List UInt8) : Option TpSegment :=
  if segment.length < kSegmentHeaderLen then none
  else
    let length := (get32be (segment.drop 4)).toNat
    let rawType := segment.getD 14 0
    if rawType &&& kMessageTypeTpFlag = 0 then none
    else if length < kLengthCoveredHeaderBytes + kTpHeaderLen then none
    else
      let segLen := length - kLengthCoveredHeaderBytes - kTpHeaderLen
      if kSegmentHeaderLen + segLen > segment.length then none
      else
        -- The length guard makes the parse succeed; the source ignores its result.
        let tph := (parseTpHeader (segment.drop kSomeipHeaderLen)).getD ⟨0, false⟩
        if tph.moreSegments ∧ (segLen = 0 ∨ segLen % kOffsetGranularity ≠ 0) then none
        else
          some
            { header :=
                { messageId := get32be segment
                  requestId := get32be (segment.drop 8)
                  protocolVersion := segment.getD 12 0
                  interfaceVersion := segment.getD 13 0
                  messageType := rawType &&& ~~~kMessageTypeTpFlag
                  returnCode := segment.getD 15 0 }
              offset := tph.offset
              more := tph.moreSegments
              data := (segment.drop kSegmentHeaderLen).take segLen }

/-- A decoded segment that promises more is not empty. -/
theorem decodeSegment_more {bytes : List UInt8} {s : TpSegment} (h : decodeSegment bytes = some s)
    (hm : s.more = true) : s.data ≠ [] := by
  simp only [decodeSegment, Option.ite_none_left_eq_some, Option.some.injEq] at h
  obtain ⟨hlen, -, -, hfit, hmore, rfl⟩ := h
  have hne : _ ≠ 0 := fun hz => hmore ⟨hm, .inl hz⟩
  rw [← List.length_pos_iff, List.length_take, List.length_drop]
  omega

private theorem clear_tpFlag {t : UInt8} (h : t &&& kMessageTypeTpFlag = 0) :
    (t ||| kMessageTypeTpFlag) &&& kMessageTypeTpFlag ≠ 0 ∧
      (t ||| kMessageTypeTpFlag) &&& ~~~kMessageTypeTpFlag = t := by
  have hall : ∀ b : BitVec 8, UInt8.ofBitVec b &&& kMessageTypeTpFlag = 0 →
      (UInt8.ofBitVec b ||| kMessageTypeTpFlag) &&& kMessageTypeTpFlag ≠ 0 ∧
        (UInt8.ofBitVec b ||| kMessageTypeTpFlag) &&& ~~~kMessageTypeTpFlag =
          UInt8.ofBitVec b := by
    decide +kernel
  exact hall t.toBitVec h

/-- **Segment and decode agree**: a frame the segmenter writes decodes to the fields it was written
from, whatever the reserved bits. -/
theorem decodeSegment_segmentFrame {hdr : MessageHeader} (reserved : UInt8) {offset : Nat}
    {more : Bool} {data : List UInt8} (htp : hdr.messageType &&& kMessageTypeTpFlag = 0)
    (h16 : offset % 16 = 0) (hoff : offset < 2 ^ 32) (hlen : data.length + 12 < 2 ^ 32)
    (hmore : more = true → data.length ≠ 0 ∧ data.length % kOffsetGranularity = 0) :
    decodeSegment (segmentFrame hdr reserved offset more data) =
      some ⟨hdr, offset, more, data⟩ := by
  obtain ⟨hflag, hclear⟩ := clear_tpFlag htp
  have hword : (UInt32.ofNat (kLengthCoveredHeaderBytes + kTpHeaderLen + data.length)).toNat =
      12 + data.length := by
    have hfits : kLengthCoveredHeaderBytes + kTpHeaderLen + data.length < 2 ^ 32 := by
      simp only [kLengthCoveredHeaderBytes, kTpHeaderLen]
      omega
    rw [UInt32.toNat_ofNat_of_lt' hfits]
    rfl
  -- The frame's words, each at the offset the decoder reads it from.
  have h4 : get32be ((segmentFrame hdr reserved offset more data).drop 4) =
      UInt32.ofNat (kLengthCoveredHeaderBytes + kTpHeaderLen + data.length) := by
    rw [segmentFrame, List.drop_left' (length_put32be _), get32be_put32be]
  have h8 : get32be ((segmentFrame hdr reserved offset more data).drop 8) = hdr.requestId := by
    rw [segmentFrame, show 8 = 4 + 4 from rfl, ← List.drop_drop,
      List.drop_left' (length_put32be _), List.drop_left' (length_put32be _), get32be_put32be]
  have h12 : (segmentFrame hdr reserved offset more data).drop 12 =
      [hdr.protocolVersion, hdr.interfaceVersion, hdr.messageType ||| kMessageTypeTpFlag,
        hdr.returnCode] ++ (put32be (tpWord offset reserved more) ++ data) := by
    rw [segmentFrame, show 12 = 4 + (4 + 4) from rfl, ← List.drop_drop, ← List.drop_drop,
      List.drop_left' (length_put32be _), List.drop_left' (length_put32be _),
      List.drop_left' (length_put32be _)]
  have hbyte : ∀ i, (segmentFrame hdr reserved offset more data).getD (12 + i) 0 =
      (([hdr.protocolVersion, hdr.interfaceVersion, hdr.messageType ||| kMessageTypeTpFlag,
        hdr.returnCode] ++ (put32be (tpWord offset reserved more) ++ data))).getD i 0 := by
    intro i
    rw [← h12, List.getD_eq_getElem?_getD, List.getD_eq_getElem?_getD, List.getElem?_drop]
  have h16d : (segmentFrame hdr reserved offset more data).drop kSomeipHeaderLen =
      put32be (tpWord offset reserved more) ++ data := by
    rw [show kSomeipHeaderLen = 12 + 4 from rfl, ← List.drop_drop, h12]
    rfl
  have h20d : (segmentFrame hdr reserved offset more data).drop kSegmentHeaderLen = data := by
    rw [show kSegmentHeaderLen = kSomeipHeaderLen + 4 from rfl, ← List.drop_drop, h16d,
      List.drop_left' (length_put32be _)]
  have hsize : (segmentFrame hdr reserved offset more data).length =
      kSegmentHeaderLen + data.length := by
    simp [segmentFrame, kSegmentHeaderLen, kSomeipHeaderLen, kTpHeaderLen]
    omega
  have h0 : get32be (segmentFrame hdr reserved offset more data) = hdr.messageId := by
    rw [segmentFrame, get32be_put32be]
  have hsub : 12 + data.length - kLengthCoveredHeaderBytes - kTpHeaderLen = data.length := by
    simp only [kLengthCoveredHeaderBytes, kTpHeaderLen]
    omega
  have hge : ¬ 12 + data.length < kLengthCoveredHeaderBytes + kTpHeaderLen := by
    simp only [kLengthCoveredHeaderBytes, kTpHeaderLen]
    omega
  have hmore' : ¬ (more = true ∧ (data.length = 0 ∨ data.length % kOffsetGranularity ≠ 0)) := by
    rintro ⟨hm, hz | hz⟩
    · exact (hmore hm).1 hz
    · exact hz (hmore hm).2
  have b0 := hbyte 0
  have b1 := hbyte 1
  have b2 := hbyte 2
  have b3 := hbyte 3
  simp only [List.cons_append, List.getD_cons_zero, List.getD_cons_succ, Nat.reduceAdd] at b0 b1 b2 b3
  simp only [decodeSegment, hsize, h4, h8, h0, b0, b1, b2, b3, h16d, h20d, hword, hsub, hflag,
    hclear, parseTpHeader_tpWord reserved more h16 hoff, Option.getD_some, if_neg hmore',
    if_neg hge, if_false, Nat.lt_irrefl, gt_iff_lt, List.take_length,
    if_neg (show ¬ kSegmentHeaderLen + data.length < kSegmentHeaderLen by omega)]

end Tc8Harness.SomeipTp
