import Tc8Harness.SomeipTp.Soundness

/-!
# Segment, feed in any order, and the message is back

`feed_segment_roundTrip`: the frames of one message, fed to a fresh reassembler in any order and with
any repetitions, are all taken in, and the one that was missing longest completes the message.
`Collecting` is the invariant: the only transfer reflects (in the sense of `Reflects`) a log of pieces
of the message. That the bytes come back right is then `Reflects.assembled`; what is left is that a
piece is never refused (`accept_piece`), and that the transfer finishes when no piece is missing
(`finish_of_all`) and not before (`finish_of_missing`).
-/

namespace Tc8Harness.SomeipTp

open Tiling ByteBuffer

/-- Piece `k` of a message: what the reassembler reads from frame `k`. -/
def Segmenter.piece (seg : Segmenter) (hdr : MessageHeader) (payload : List UInt8) (k : Nat) :
    TpSegment :=
  ⟨hdr, k * seg.maxSegmentPayload, decide (k + 1 < seg.count payload.length), seg.chunk payload k⟩

/-- `s` is a piece of the message. -/
def Segmenter.IsPiece (seg : Segmenter) (hdr : MessageHeader) (payload : List UInt8)
    (s : TpSegment) : Prop :=
  ∃ k < seg.count payload.length, s = seg.piece hdr payload k

section

variable {seg : Segmenter} {hdr : MessageHeader} {payload : List UInt8}

/-- Every frame the segmenter writes decodes to its piece. -/
theorem Segmenter.decode_frame (reserved : UInt8)
    (htp : hdr.messageType &&& kMessageTypeTpFlag = 0)
    (hoff : (seg.count payload.length - 1) * seg.maxSegmentPayload ≤ kMaxByteOffset) {k : Nat}
    (hk : k < seg.count payload.length) :
    decodeSegment (seg.frame hdr payload reserved k) = some (seg.piece hdr payload k) := by
  have hal := seg.aligned
  have hfits := seg.fits
  have hmul : k * seg.maxSegmentPayload % 16 = 0 :=
    Nat.mod_eq_zero_of_dvd ((Nat.dvd_of_mod_eq_zero hal).mul_left k)
  have hle : k * seg.maxSegmentPayload ≤ kMaxByteOffset :=
    (Nat.mul_le_mul_right _ (by omega)).trans hoff
  have hlen := seg.length_chunk payload k
  simp only [kMaxByteOffset, kOffsetGranularity, kLengthCoveredHeaderBytes, kTpHeaderLen] at hle hfits
  refine decodeSegment_segmentFrame reserved htp hmul (by omega) (by omega) ?_
  intro hmore
  rw [seg.length_chunk_of_lt (of_decide_eq_true hmore)]
  exact ⟨seg.nonzero, hal⟩

theorem Segmenter.piece_end_le (hdr : MessageHeader) {k : Nat} (hk : k < seg.count payload.length) :
    (seg.piece hdr payload k).offset + (seg.piece hdr payload k).data.length ≤ payload.length := by
  by_cases hlast : k + 1 < seg.count payload.length
  · have := seg.lt_count_iff.1 hlast
    rw [Nat.succ_mul] at this
    simp only [piece, seg.length_chunk_of_lt hlast]
    omega
  · exact Nat.le_of_eq (seg.end_of_last hk hlast)

theorem Segmenter.piece_end_of_last {k : Nat} (hk : k < seg.count payload.length)
    (hlast : (seg.piece hdr payload k).more = false) :
    (seg.piece hdr payload k).offset + (seg.piece hdr payload k).data.length = payload.length :=
  seg.end_of_last hk (of_decide_eq_false hlast)

/-- Pieces at one offset are one piece. -/
theorem Segmenter.piece_offset_inj {j k : Nat}
    (h : (seg.piece hdr payload j).offset = (seg.piece hdr payload k).offset) : j = k :=
  Nat.eq_of_mul_eq_mul_right (Nat.pos_of_ne_zero seg.nonzero) h

/-- A position lies in the piece it lies in: no two pieces overlap. -/
theorem Segmenter.piece_covers {j k b : Nat}
    (hj : (seg.piece hdr payload j).Covers b) (hk : (seg.piece hdr payload k).Covers b) : j = k := by
  have hlj := seg.length_chunk payload j
  have hlk := seg.length_chunk payload k
  obtain ⟨hj1, hj2⟩ := hj
  obtain ⟨hk1, hk2⟩ := hk
  simp only [piece] at hj1 hj2 hk1 hk2
  rcases Nat.lt_trichotomy j k with hlt | heq | hlt
  · have := Nat.mul_le_mul_right seg.maxSegmentPayload (Nat.succ_le_of_lt hlt)
    rw [Nat.succ_mul] at this
    omega
  · exact heq
  · have := Nat.mul_le_mul_right seg.maxSegmentPayload (Nat.succ_le_of_lt hlt)
    rw [Nat.succ_mul] at this
    omega

/-- The byte of a piece at a position it covers is the message's byte there. -/
theorem Segmenter.getElem?_piece {k b : Nat} (h : (seg.piece hdr payload k).Covers b) :
    (seg.piece hdr payload k).data[b - (seg.piece hdr payload k).offset]? = payload[b]? := by
  have hlk := seg.length_chunk payload k
  obtain ⟨h1, h2⟩ := h
  simp only [piece] at h1 h2 ⊢
  rw [chunk, List.getElem?_take_of_lt (by omega), List.getElem?_drop]
  congr 1
  omega

/-! ## One transfer that has only seen pieces -/

variable {p : Pending} {acc : List TpSegment}

/-- A recorded extent is that of the piece at its offset. -/
private theorem recorded_piece (h : Reflects p acc) (hp : ∀ s ∈ acc, seg.IsPiece hdr payload s)
    {off : Nat} {r : Segment} (hseg : p.segs[off]? = some r) :
    ∃ k < seg.count payload.length, (seg.piece hdr payload k).offset = off ∧
      r = ⟨(seg.piece hdr payload k).data.length, (seg.piece hdr payload k).more⟩ := by
  obtain ⟨s, hs, hoff, hlen, hmore⟩ := h.recorded hseg
  obtain ⟨k, hk, rfl⟩ := hp s hs
  refine ⟨k, hk, hoff, ?_⟩
  rw [hlen, hmore]

/-- A known total is the length of the message. -/
private theorem total_eq (h : Reflects p acc) (hp : ∀ s ∈ acc, seg.IsPiece hdr payload s)
    (hseen : p.lastSeen = true) : p.total = payload.length := by
  obtain ⟨s, hs, hm⟩ := h.last.1 hseen
  obtain ⟨k, hk, rfl⟩ := hp s hs
  rw [← (h.extent hseen _ hs).2 hm, Segmenter.piece_end_of_last hk hm]

/-- **A piece is never refused.** -/
theorem accept_piece (h : Reflects p acc) (hp : ∀ s ∈ acc, seg.IsPiece hdr payload s) {k : Nat}
    (hk : k < seg.count payload.length) : ∃ p', p.accept (seg.piece hdr payload k) = some p' := by
  have hend := Segmenter.piece_end_le hdr hk
  have hext : p.extentOk (seg.piece hdr payload k) = true := by
    rw [Pending.extentOk_iff]
    intro hseen
    rw [total_eq h hp hseen]
    exact ⟨hend, Segmenter.piece_end_of_last hk⟩
  obtain ⟨q, hq⟩ : ∃ q, p.place (seg.piece hdr payload k) = some q := by
    unfold Pending.place
    cases hfind : p.segs[(seg.piece hdr payload k).offset]? with
    | none => exact ⟨_, rfl⟩
    | some r =>
      obtain ⟨j, hj, hoff, rfl⟩ := recorded_piece h hp hfind
      rw [Segmenter.piece_offset_inj hoff]
      simp
  -- Whatever is recorded is a piece, so it ends where the message does at the latest.
  have hbound : ∀ off r, q.segs[off]? = some r → off + r.len ≤ payload.length := by
    intro off r hr
    rw [(Pending.place_cases hq).2.2.2.1] at hr
    split at hr
    · next hoff =>
      cases hr
      exact hoff ▸ hend
    · obtain ⟨j, hj, rfl, rfl⟩ := recorded_piece h hp hr
      exact Segmenter.piece_end_le hdr hj
  obtain ⟨q', hq'⟩ : ∃ q', q.close (seg.piece hdr payload k) = some q' := by
    unfold Pending.close
    cases hm : (seg.piece hdr payload k).more with
    | true => exact ⟨q, by simp⟩
    | false =>
      have hnone : ¬ (q.segs.toList.any fun offSeg => decide (offSeg.1 + offSeg.2.len >
          (seg.piece hdr payload k).offset + (seg.piece hdr payload k).data.length)) = true := by
        rw [Segmenter.piece_end_of_last hk hm, List.any_eq_true]
        rintro ⟨⟨off, r⟩, hmem, hpast⟩
        have hle := hbound off r (Std.TreeMap.mem_toList_iff_getElem?_eq_some.1 hmem)
        exact absurd (of_decide_eq_true hpast) (Nat.not_lt.2 hle)
      simp [hnone]
  exact ⟨{ q' with age := 0 }, by simp [Pending.accept, hext, hq, hq']⟩

/-- What the offset map records of piece `k`. -/
private def entry (seg : Segmenter) (payload : List UInt8) (k : Nat) : Nat × Segment :=
  (k * seg.maxSegmentPayload,
    ⟨(seg.chunk payload k).length, decide (k + 1 < seg.count payload.length)⟩)

/-- The pieces from `k` on tile what is left of the message. -/
private theorem tiles_entries (seg : Segmenter) (payload : List UInt8) :
    ∀ fuel k, seg.count payload.length = k + fuel + 1 →
      Tiles Prod.fst (fun x => x.2.len) (k * seg.maxSegmentPayload)
        ((List.range' k (fuel + 1)).map (entry seg payload)) payload.length := by
  intro fuel
  induction fuel with
  | zero =>
    intro k hk
    refine ⟨rfl, ?_⟩
    exact seg.end_of_last (by omega) (by omega)
  | succ fuel ih =>
    intro k hk
    refine ⟨rfl, ?_⟩
    have hnext := ih (k + 1) (by omega)
    rw [Nat.succ_mul] at hnext
    simp only [entry, seg.length_chunk_of_lt (show k + 1 < seg.count payload.length by omega)]
    exact hnext

/-- With no piece missing the offset map lists the pieces in order. -/
private theorem toList_segs (h : Reflects p acc) (hp : ∀ s ∈ acc, seg.IsPiece hdr payload s)
    (hall : ∀ k < seg.count payload.length, seg.piece hdr payload k ∈ acc) :
    p.segs.toList = (List.range (seg.count payload.length)).map (entry seg payload) := by
  have hpos := Nat.pos_of_ne_zero seg.nonzero
  have hsorted : p.segs.toList.Pairwise fun a b => a.1 < b.1 :=
    (Std.TreeMap.ordered_keys_toList (t := p.segs)).imp fun hlt => Nat.compare_eq_lt.1 hlt
  have hsorted' : ((List.range (seg.count payload.length)).map (entry seg payload)).Pairwise
      fun a b => a.1 < b.1 := by
    rw [List.pairwise_map]
    exact List.pairwise_lt_range.imp fun hlt => Nat.mul_lt_mul_of_pos_right hlt hpos
  have hmem : ∀ x, x ∈ p.segs.toList ↔
      x ∈ (List.range (seg.count payload.length)).map (entry seg payload) := by
    rintro ⟨off, r⟩
    rw [Std.TreeMap.mem_toList_iff_getElem?_eq_some, List.mem_map]
    constructor
    · intro hseg
      obtain ⟨k, hk, hoff, rfl⟩ := recorded_piece h hp hseg
      exact ⟨k, List.mem_range.2 hk, by rw [← hoff]; rfl⟩
    · rintro ⟨k, hk, hx⟩
      cases hx
      exact h.placed _ (hall k (List.mem_range.1 hk))
  have hnodup : ∀ {l : List (Nat × Segment)}, l.Pairwise (fun a b => a.1 < b.1) → l.Nodup := by
    intro l hl
    refine hl.imp ?_
    rintro a b hlt rfl
    exact Nat.lt_irrefl _ hlt
  have hperm := (List.perm_ext_iff_of_nodup (hnodup hsorted) (hnodup hsorted')).2 hmem
  exact hperm.eq_of_pairwise (fun a b _ _ hab hba => absurd hab (Nat.lt_asymm hba)) hsorted hsorted'

/-- A completed transfer that has only seen pieces gives the message back. -/
private theorem assembled_eq {result : List UInt8} {chosen : List TpSegment} {hdr' : MessageHeader}
    (h : Assembled acc hdr' result chosen) (hp : ∀ s ∈ acc, seg.IsPiece hdr payload s) :
    result = payload := by
  have hlen : result.length = payload.length := by
    obtain ⟨s, ⟨hs, hm⟩, -⟩ := h.last
    have hend := h.lastEnd s hs hm
    obtain ⟨k, hk, rfl⟩ := hp s (h.accepted s hs)
    rw [← hend, Segmenter.piece_end_of_last hk hm]
  apply List.ext_getElem?
  intro b
  by_cases hb : b < result.length
  · obtain ⟨s, hfind, hbyte⟩ := h.bytes b hb
    have hcov : s.Covers b := by simpa using List.find?_some hfind
    obtain ⟨k, -, rfl⟩ := hp s (List.mem_of_find?_eq_some hfind)
    rw [hbyte, Segmenter.getElem?_piece hcov]
  · rw [List.getElem?_eq_none (by omega), List.getElem?_eq_none (by omega)]

/-- With no piece missing the transfer finishes with the message. -/
theorem finish_of_all (h : Reflects p acc) (hp : ∀ s ∈ acc, seg.IsPiece hdr payload s)
    (hall : ∀ k < seg.count payload.length, seg.piece hdr payload k ∈ acc) :
    p.finish = some payload := by
  have hcount : seg.count payload.length = 0 + (payload.length - 1) / seg.maxSegmentPayload + 1 := by
    simp [Segmenter.count]
  have hpos : 0 < seg.count payload.length := Nat.succ_pos _
  have hseen : p.lastSeen = true := by
    refine h.last.2 ⟨_, hall (seg.count payload.length - 1) (by omega), ?_⟩
    exact decide_eq_false (by omega)
  have hwalk : walk p.segs.toList 0 = some p.total := by
    rw [walk_eq_some_iff, toList_segs h hp hall, total_eq h hp hseen, List.range_eq_range', hcount,
      Nat.zero_add]
    have htiles := tiles_entries seg payload _ 0 hcount
    rwa [Nat.zero_mul] at htiles
  have hdone : p.finish = some (resize p.buf p.total) := by
    simp [Pending.finish, hseen, hwalk]
  obtain ⟨chosen, hass⟩ := h.assembled hdone
  rw [hdone, assembled_eq hass hp]

/-- With a piece missing the transfer does not finish. -/
theorem finish_of_missing (h : Reflects p acc) (hp : ∀ s ∈ acc, seg.IsPiece hdr payload s) {j : Nat}
    (hj : j < seg.count payload.length) (hmiss : seg.piece hdr payload j ∉ acc) :
    p.finish = none := by
  cases hfin : p.finish with
  | none => rfl
  | some result =>
    obtain ⟨chosen, hass⟩ := h.assembled hfin
    have hres := assembled_eq hass hp
    subst hres
    exfalso
    by_cases hlast : j + 1 < seg.count result.length
    · -- The first byte of a missing inner piece is covered by no other piece.
      have hlt := seg.lt_count_iff.1 hlast
      rw [Nat.succ_mul] at hlt
      obtain ⟨s, hfind, -⟩ := hass.bytes (j * seg.maxSegmentPayload) (by omega)
      have hcov : s.Covers (j * seg.maxSegmentPayload) := by simpa using List.find?_some hfind
      have hmem := List.mem_of_find?_eq_some hfind
      obtain ⟨k, -, rfl⟩ := hp s hmem
      have hjcov : (seg.piece hdr result j).Covers (j * seg.maxSegmentPayload) := by
        have hpos := Nat.pos_of_ne_zero seg.nonzero
        constructor
        · exact Nat.le_refl _
        · simp only [Segmenter.piece, seg.length_chunk_of_lt hlast]
          omega
      rw [Segmenter.piece_covers hcov hjcov] at hmem
      exact hmiss hmem
    · -- A finished transfer has accepted a last segment, and only the last piece is one.
      obtain ⟨s, ⟨hs, hm⟩, -⟩ := hass.last
      have hacc := hass.accepted s hs
      obtain ⟨k, hk, rfl⟩ := hp s hacc
      have hk' : ¬ k + 1 < seg.count result.length := of_decide_eq_false hm
      have : k = j := by omega
      exact hmiss (this ▸ hacc)

/-! ## One reassembler that has only been fed frames of the message -/

variable {r : Reassembler} {log : List TpSegment}

/-- The reassembler holds at most the message's transfer, which reflects a log of its pieces. -/
structure Collecting (seg : Segmenter) (hdr : MessageHeader) (payload : List UInt8)
    (r : Reassembler) (log : List TpSegment) : Prop where
  room : payload.length ≤ r.maxMessage ∧ 1 ≤ r.maxConcurrent
  pieces : ∀ s ∈ log, seg.IsPiece hdr payload s
  only : ∀ {key p}, r.pending[key]? = some p → key = transferKey hdr.messageId hdr.requestId
  empty : log = [] → r.pending[transferKey hdr.messageId hdr.requestId]? = none
  held : log ≠ [] → ∃ p, r.pending[transferKey hdr.messageId hdr.requestId]? = some p ∧
    p.header = hdr ∧ Reflects p log

namespace Collecting

theorem fresh {maxMessage maxConcurrent : Nat} (timeout : Int)
    (hmax : payload.length ≤ maxMessage) (hconc : 1 ≤ maxConcurrent) :
    Collecting seg hdr payload (Reassembler.fresh maxMessage maxConcurrent timeout) [] := by
  refine ⟨⟨hmax, hconc⟩, by simp, ?_, ?_, fun hne => absurd rfl hne⟩ <;>
    simp [Reassembler.fresh]

/-- A piece always reaches the transfer. -/
private theorem feedSegment_piece (h : Collecting seg hdr payload r log) {k : Nat}
    (hk : k < seg.count payload.length) :
    (r.transfer (seg.piece hdr payload k)).header = hdr ∧
      Reflects (r.transfer (seg.piece hdr payload k)) log ∧
      r.feedSegment (seg.piece hdr payload k) =
        r.feedTransfer (transferKey hdr.messageId hdr.requestId)
          (r.transfer (seg.piece hdr payload k)) (seg.piece hdr payload k) := by
  have hend := Segmenter.piece_end_le hdr hk
  have hfit : ¬ (seg.piece hdr payload k).offset + (seg.piece hdr payload k).data.length >
      r.maxMessage := by
    have := h.room.1
    omega
  have hkey : (seg.piece hdr payload k).key = transferKey hdr.messageId hdr.requestId := rfl
  by_cases hlog : log = []
  · have hnone := h.empty hlog
    have hroom : ¬ r.pending.size ≥ r.maxConcurrent := by
      have hsize : r.pending.size = 0 := by
        rw [← Std.TreeMap.length_toList, List.length_eq_zero_iff, List.eq_nil_iff_forall_not_mem]
        rintro ⟨key, p⟩ hmem
        have hsome := Std.TreeMap.mem_toList_iff_getElem?_eq_some.1 hmem
        rw [h.only hsome, hnone] at hsome
        cases hsome
      have := h.room.2
      omega
    have htr : r.transfer (seg.piece hdr payload k) = { header := hdr } := by
      simp only [Reassembler.transfer, hkey, hnone, Option.getD_none]
      rfl
    rw [htr, hlog]
    refine ⟨rfl, Reflects.fresh hdr, ?_⟩
    simp only [Reassembler.feedSegment, if_neg hfit, hkey, hnone, if_neg hroom]
    rfl
  · obtain ⟨p, hsome, hhdr, hreflects⟩ := h.held hlog
    have htr : r.transfer (seg.piece hdr payload k) = p := by
      simp only [Reassembler.transfer, hkey, hsome, Option.getD_some]
    have hsame : sameHeader p.header (seg.piece hdr payload k).header = true := by
      rw [hhdr]
      exact sameHeader_refl hdr
    rw [htr]
    refine ⟨hhdr, hreflects, ?_⟩
    simp only [Reassembler.feedSegment, if_neg hfit, hkey, hsome, hsame, if_true]

private theorem pieces_append (h : Collecting seg hdr payload r log) {k : Nat}
    (hk : k < seg.count payload.length) :
    ∀ s ∈ log ++ [seg.piece hdr payload k], seg.IsPiece hdr payload s := by
  intro s hs
  rcases List.mem_append.1 hs with hs | hs
  · exact h.pieces s hs
  · exact ⟨k, hk, List.mem_singleton.1 hs⟩

private theorem accept_transfer (h : Collecting seg hdr payload r log) {k : Nat}
    (hk : k < seg.count payload.length) :
    ∃ p', (r.transfer (seg.piece hdr payload k)).accept (seg.piece hdr payload k) = some p' ∧
      p'.header = hdr ∧ Reflects p' (log ++ [seg.piece hdr payload k]) := by
  obtain ⟨hhdr, hreflects, -⟩ := h.feedSegment_piece hk
  obtain ⟨p', hp'⟩ := accept_piece hreflects h.pieces hk
  refine ⟨p', hp', (Pending.accept_accepted hp').header.trans hhdr, ?_⟩
  refine hreflects.accept hp' hhdr.symm fun hm => ?_
  have hlen := seg.length_chunk_of_lt (of_decide_eq_true hm)
  have hpos := Nat.pos_of_ne_zero seg.nonzero
  exact List.ne_nil_of_length_pos (hlen ▸ hpos : 0 < (seg.chunk payload k).length)

/-- **While a piece is missing**, a feed of any piece is taken in and more are awaited. -/
theorem feed_open (h : Collecting seg hdr payload r log) {j k : Nat}
    (hk : k < seg.count payload.length) (hj : j < seg.count payload.length)
    (hmiss : seg.piece hdr payload j ∉ log ++ [seg.piece hdr payload k]) :
    (r.feedSegment (seg.piece hdr payload k)).1.status = .kInProgress ∧
      Collecting seg hdr payload (r.feedSegment (seg.piece hdr payload k)).2
        (log ++ [seg.piece hdr payload k]) := by
  obtain ⟨-, -, hfeed⟩ := h.feedSegment_piece hk
  obtain ⟨p', haccept, hhdr, hreflects⟩ := h.accept_transfer hk
  have hopen := finish_of_missing hreflects (h.pieces_append hk) hj hmiss
  simp only [hfeed, Reassembler.feedTransfer, haccept, hopen, true_and]
  refine ⟨h.room, h.pieces_append hk, ?_, by simp, fun _ => ⟨p', ?_, hhdr, hreflects⟩⟩
  · intro key p hsome
    rw [Std.TreeMap.getElem?_insert] at hsome
    split at hsome
    · next heq => exact (by simpa using heq : _ = key).symm
    · exact h.only hsome
  · rw [Std.TreeMap.getElem?_insert_self]

/-- **The last missing piece** completes the message and leaves nothing pending. -/
theorem feed_last (h : Collecting seg hdr payload r log) {k : Nat}
    (hk : k < seg.count payload.length)
    (hall : ∀ j < seg.count payload.length,
      seg.piece hdr payload j ∈ log ++ [seg.piece hdr payload k]) :
    (r.feedSegment (seg.piece hdr payload k)).1 =
        { status := .kComplete, header := hdr, payload := payload } ∧
      (r.feedSegment (seg.piece hdr payload k)).2.pending.size = 0 := by
  obtain ⟨-, -, hfeed⟩ := h.feedSegment_piece hk
  obtain ⟨p', haccept, hhdr, hreflects⟩ := h.accept_transfer hk
  have hdone := finish_of_all hreflects (h.pieces_append hk) hall
  simp only [hfeed, Reassembler.feedTransfer, haccept, hdone, hhdr, true_and]
  rw [← Std.TreeMap.length_toList, List.length_eq_zero_iff, List.eq_nil_iff_forall_not_mem]
  rintro ⟨key, p⟩ hmem
  have hsome := Std.TreeMap.mem_toList_iff_getElem?_eq_some.1 hmem
  simp only [Reassembler.drop, Std.TreeMap.getElem?_erase] at hsome
  split at hsome
  · cases hsome
  · next hne => exact hne (by rw [h.only hsome]; simp)

/-- A `mainFunction` call with no expiry changes only ages. -/
theorem mainFunction (h : Collecting seg hdr payload r log) {elapsed : Int}
    (hnone : (r.mainFunction elapsed).1 = []) :
    Collecting seg hdr payload (r.mainFunction elapsed).2 log := by
  have hget := Reassembler.getElem?_mainFunction_of_nil hnone
  refine ⟨h.room, h.pieces, ?_, ?_, ?_⟩
  · intro key p hsome
    rw [hget] at hsome
    obtain ⟨q, hq, -⟩ := Option.map_eq_some_iff.1 hsome
    exact h.only hq
  · intro hlog
    rw [hget, h.empty hlog]
    rfl
  · intro hlog
    obtain ⟨p, hsome, hhdr, hr⟩ := h.held hlog
    refine ⟨{ p with age := p.age + elapsed }, by rw [hget, hsome]; rfl, hhdr, ?_⟩
    exact ⟨hr.header, hr.recorded, hr.placed, hr.moreData, hr.extent, hr.last, hr.bytes⟩

end Collecting

/-- The pieces a sequence of calls feeds. -/
def fedPieces (ops : List Op) : List TpSegment :=
  ops.filterMap fun
    | .feed (.bytes bytes) => decodeSegment bytes
    | _ => none

/-- No `mainFunction` call of the sequence abandons a transfer. -/
def NoExpiry (r : Reassembler) (ops : List Op) : Prop :=
  ∀ before elapsed after, ops = before ++ .mainFunction elapsed :: after →
    ((r.run before).mainFunction elapsed).1 = []

/-- Every `feed` of the sequence returns `kInProgress`. -/
def AllInProgress (r : Reassembler) (ops : List Op) : Prop :=
  ∀ before segment after, ops = before ++ .feed segment :: after →
    ((r.run before).feed segment).1.status = .kInProgress

theorem NoExpiry.tail {op : Op} {ops : List Op} (h : NoExpiry r (op :: ops)) :
    NoExpiry (r.step op) ops :=
  fun before elapsed after heq => h (op :: before) elapsed after (by rw [heq]; rfl)

theorem AllInProgress.cons {op : Op} {ops : List Op}
    (hop : ∀ segment, op = .feed segment → (r.feed segment).1.status = .kInProgress)
    (h : AllInProgress (r.step op) ops) : AllInProgress r (op :: ops) := by
  intro before segment after heq
  cases before with
  | nil =>
    obtain ⟨rfl, -⟩ := List.cons.inj heq
    exact hop segment rfl
  | cons op' before =>
    obtain ⟨rfl, htail⟩ := List.cons.inj heq
    exact h before segment after htail

/-- **A run with a piece missing**: every feed is taken in, and the log grows by what was fed. -/
theorem Collecting.run {ops : List Op} {j : Nat} (h : Collecting seg hdr payload r log)
    (hops : ∀ op ∈ ops, (∃ k < seg.count payload.length, ∃ bytes, op = .feed (.bytes bytes) ∧
      decodeSegment bytes = some (seg.piece hdr payload k)) ∨ ∃ elapsed, op = .mainFunction elapsed)
    (hexp : NoExpiry r ops) (hj : j < seg.count payload.length)
    (hmiss : seg.piece hdr payload j ∉ log ++ fedPieces ops) :
    AllInProgress r ops ∧ Collecting seg hdr payload (r.run ops) (log ++ fedPieces ops) := by
  induction ops generalizing r log with
  | nil =>
    refine ⟨fun before segment after heq => by simp at heq, ?_⟩
    simpa [fedPieces, Reassembler.run] using h
  | cons op ops ih =>
    have htail : ∀ op' ∈ ops, _ := fun op' hop' => hops op' (List.mem_cons_of_mem op hop')
    rcases hops op List.mem_cons_self with ⟨k, hk, bytes, rfl, hdec⟩ | ⟨elapsed, rfl⟩
    · have hfed : log ++ fedPieces (.feed (.bytes bytes) :: ops) =
          (log ++ [seg.piece hdr payload k]) ++ fedPieces ops := by
        simp [fedPieces, hdec]
      have hfeed : r.feed (.bytes bytes) = r.feedSegment (seg.piece hdr payload k) := by
        simp [Reassembler.feed, hdec]
      rw [hfed] at hmiss ⊢
      obtain ⟨hstatus, hnext⟩ := h.feed_open hk hj fun hmem => hmiss (List.mem_append_left _ hmem)
      rw [← hfeed] at hstatus hnext
      obtain ⟨hall, hcol⟩ := ih hnext htail hexp.tail hmiss
      refine ⟨AllInProgress.cons ?_ hall, hcol⟩
      intro segment heq
      cases heq
      exact hstatus
    · have hfed : log ++ fedPieces (.mainFunction elapsed :: ops) = log ++ fedPieces ops := by
        simp [fedPieces]
      rw [hfed] at hmiss ⊢
      have hnext := h.mainFunction (hexp [] elapsed ops rfl)
      obtain ⟨hall, hcol⟩ := ih hnext htail hexp.tail hmiss
      exact ⟨AllInProgress.cons (fun segment heq => by cases heq) hall, hcol⟩

end

/-- **Round trip.** Take the frames of a message whose type has the TP flag clear. Feed them to a
fresh reassembler in any order and with any repetitions, with `mainFunction` calls that expire
nothing in between, until one frame `last` is missing: every feed so far returned `kInProgress`, and
feeding `last` returns the message, with nothing pending. -/
theorem feed_segment_roundTrip (seg : Segmenter) (hdr : MessageHeader) (payload : Buffer)
    (reserved : UInt8) (frames : List (List UInt8)) (maxMessage maxConcurrent : Nat) (timeout : Int)
    (pre : List Op) (last : List UInt8)
    (htp : hdr.messageType &&& kMessageTypeTpFlag = 0)
    (hsegment : seg.segment hdr payload reserved = .ok frames)
    (hmax : payload.len ≤ maxMessage) (hconc : 1 ≤ maxConcurrent)
    (hops : ∀ op ∈ pre, (∃ f ∈ frames, op = .feed (.bytes f)) ∨
      ∃ elapsed, op = .mainFunction elapsed)
    (hexp : NoExpiry (Reassembler.fresh maxMessage maxConcurrent timeout) pre)
    (hlast : last ∈ frames) (hmissing : Op.feed (.bytes last) ∉ pre)
    (hseen : ∀ f ∈ frames, f ≠ last → Op.feed (.bytes f) ∈ pre) :
    let r₀ := Reassembler.fresh maxMessage maxConcurrent timeout
    let out := (r₀.run pre).feed (.bytes last)
    AllInProgress r₀ pre ∧
      out.1 = { status := .kComplete, header := hdr, payload := payload.data } ∧
      out.2.pending.size = 0 := by
  intro r₀ out
  obtain ⟨rfl, hoff⟩ := seg.segment_eq hdr payload reserved hsegment
  have hlen : payload.data.length ≤ maxMessage := by
    cases payload with
    | null n => simp [Buffer.data]
    | bytes d => exact hmax
  have hframe : ∀ f ∈ (List.range (seg.count payload.data.length)).map
      (seg.frame hdr payload.data reserved), ∃ k < seg.count payload.data.length,
        f = seg.frame hdr payload.data reserved k ∧
          decodeSegment f = some (seg.piece hdr payload.data k) := by
    intro f hf
    obtain ⟨k, hk, rfl⟩ := List.mem_map.1 hf
    have hk := List.mem_range.1 hk
    exact ⟨k, hk, rfl, Segmenter.decode_frame reserved htp hoff hk⟩
  obtain ⟨j, hj, rfl, hjdec⟩ := hframe last hlast
  have hmiss : seg.piece hdr payload.data j ∉ [] ++ fedPieces pre := by
    intro hmem
    obtain ⟨op, hop, hdec⟩ := List.mem_filterMap.1 hmem
    rcases hops op hop with ⟨f, hf, rfl⟩ | ⟨elapsed, rfl⟩
    · obtain ⟨k, hk, rfl, hkdec⟩ := hframe f hf
      have hdec : decodeSegment _ = some _ := hdec
      rw [hkdec, Option.some.injEq] at hdec
      rw [Segmenter.piece_offset_inj (congrArg TpSegment.offset hdec)] at hop
      exact hmissing hop
    · cases hdec
  have hpieces : ∀ op ∈ pre, (∃ k < seg.count payload.data.length, ∃ f, op = .feed (.bytes f) ∧
      decodeSegment f = some (seg.piece hdr payload.data k)) ∨
        ∃ elapsed, op = .mainFunction elapsed := by
    intro op hop
    rcases hops op hop with ⟨f, hf, heq⟩ | htick
    · obtain ⟨k, hk, -, hdec⟩ := hframe f hf
      exact .inl ⟨k, hk, f, heq, hdec⟩
    · exact .inr htick
  obtain ⟨hall, hcol⟩ := (Collecting.fresh timeout hlen hconc).run hpieces hexp hj hmiss
  have hout : out = (r₀.run pre).feedSegment (seg.piece hdr payload.data j) := by
    simp only [out, Reassembler.feed, hjdec]
  refine ⟨hall, ?_⟩
  rw [hout]
  refine hcol.feed_last hj fun k hk => ?_
  by_cases hkj : k = j
  · rw [hkj]
    simp
  · refine List.mem_append_left _ (List.mem_filterMap.2 ⟨_, hseen
      (seg.frame hdr payload.data reserved k) (List.mem_map_of_mem (List.mem_range.2 hk)) ?_, ?_⟩)
    · intro heq
      have hkdec := Segmenter.decode_frame reserved htp hoff hk
      rw [heq, hjdec, Option.some.injEq] at hkdec
      exact hkj (Segmenter.piece_offset_inj (congrArg TpSegment.offset hkdec)).symm
    · exact Segmenter.decode_frame reserved htp hoff hk

/-- A 17-byte message in two segments: the second arrives twice, then the first. -/
theorem feed_segment_roundTrip_two_segments :
    let seg : Segmenter := ⟨16, by decide, by decide, by decide⟩
    let hdr : MessageHeader := ⟨0x12345678, 0x00010002, 1, 1, 0, 0⟩
    let data : List UInt8 := List.replicate 16 0xAB ++ [0xCD]
    let pre := [Op.feed (.bytes (seg.frame hdr data 5 1)), .mainFunction 10,
      .feed (.bytes (seg.frame hdr data 5 1))]
    let r₀ := Reassembler.fresh 17 1 1000
    let out := (r₀.run pre).feed (.bytes (seg.frame hdr data 5 0))
    seg.segment hdr (.bytes data) 5 = .ok [seg.frame hdr data 5 0, seg.frame hdr data 5 1] ∧
      AllInProgress r₀ pre ∧
      out.1 = { status := .kComplete, header := hdr, payload := data } ∧
      out.2.pending.size = 0 := by
  intro seg hdr data pre r₀ out
  have hsegment : seg.segment hdr (.bytes data) 5 =
      .ok [seg.frame hdr data 5 0, seg.frame hdr data 5 1] := by
    have hsmall : ¬ (data.length ≠ 0 ∧
        (data.length - 1) / seg.maxSegmentPayload * seg.maxSegmentPayload > kMaxByteOffset) := by
      decide
    have hcount : seg.count data.length = 2 := by decide
    simp only [Segmenter.segment, if_neg hsmall, Segmenter.segmentLoop_zero, hcount]
    rfl
  refine ⟨hsegment, feed_segment_roundTrip seg hdr (.bytes data) 5 _ 17 1 1000 pre _ (by decide)
    hsegment (by decide) (by decide) ?_ ?_ List.mem_cons_self ?_ ?_⟩
  · simp [pre]
  · intro before elapsed after heq
    rcases before with _ | ⟨op, _ | ⟨op', _ | ⟨op'', before⟩⟩⟩
    · simp [pre] at heq
    · simp only [pre, List.cons_append, List.nil_append, List.cons.injEq,
        Op.mainFunction.injEq] at heq
      obtain ⟨rfl, rfl, rfl⟩ := heq
      decide +kernel
    · simp [pre] at heq
    · simp [pre] at heq
  · simp only [pre, List.mem_cons, Op.feed.injEq, Buffer.bytes.injEq, reduceCtorEq,
      List.not_mem_nil, or_false, false_or, or_self]
    decide +kernel
  · intro f hf hne
    simp only [List.mem_cons, List.not_mem_nil, or_false] at hf
    rcases hf with rfl | rfl
    · exact absurd rfl hne
    · exact List.mem_cons_self

end Tc8Harness.SomeipTp
