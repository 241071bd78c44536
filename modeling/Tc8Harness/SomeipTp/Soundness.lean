import Tc8Harness.Lib.Tiling
import Tc8Harness.SomeipTp.Reassembler

/-!
# A completed message is made of accepted segments

The reassembler is fed untrusted bytes. `Reflects` ties one transfer to the segments accepted for it
since it was created: the offset map holds exactly their extents, and a buffer position that only
segments of one offset cover holds the byte of the first of them. `Reflects.accept` keeps it over one
segment, `Tracks.step` over one call, and `feed_complete_sound` concludes for every sequence of
calls: whatever `feed` returns as complete is tiled by accepted segments.
-/

namespace Tc8Harness.SomeipTp

open Tiling ByteBuffer

/-- The segment's byte range holds position `b`. -/
def TpSegment.Covers (s : TpSegment) (b : Nat) : Prop :=
  Tiling.Covers TpSegment.offset (fun s => s.data.length) s b

instance (s : TpSegment) (b : Nat) : Decidable (s.Covers b) :=
  inferInstanceAs (Decidable (_ ∧ _))

/-! ## What one segment does to its transfer -/

/-- The change `accept` makes, field by field. -/
structure Accepted (p : Pending) (s : TpSegment) (p' : Pending) : Prop where
  header : p'.header = p.header
  extent : p.lastSeen = true → s.offset + s.data.length ≤ p.total ∧
    (s.more = false → s.offset + s.data.length = p.total)
  segs : ∀ off : Nat, p'.segs[off]? =
    if s.offset = off then some ⟨s.data.length, s.more⟩ else p.segs[off]?
  buf : (p.segs[s.offset]? = some ⟨s.data.length, s.more⟩ ∧ p'.buf = p.buf) ∨
    (p.segs[s.offset]? = none ∧ p'.buf = writeAt p.buf s.offset s.data)
  more : s.more = true → p'.lastSeen = p.lastSeen ∧ p'.total = p.total
  last : s.more = false → p'.lastSeen = true ∧ p'.total = s.offset + s.data.length ∧
    ∀ off seg, p'.segs[off]? = some seg → off + seg.len ≤ p'.total

theorem Pending.extentOk_iff (p : Pending) (s : TpSegment) :
    p.extentOk s = true ↔ (p.lastSeen = true → s.offset + s.data.length ≤ p.total ∧
      (s.more = false → s.offset + s.data.length = p.total)) := by
  unfold extentOk
  cases p.lastSeen <;> cases s.more <;> simp

/-- `place` leaves the segment recorded at its offset and every other record as it was. -/
theorem Pending.place_cases {p q : Pending} {s : TpSegment} (h : p.place s = some q) :
    q.header = p.header ∧ q.lastSeen = p.lastSeen ∧ q.total = p.total ∧
      (∀ off : Nat, q.segs[off]? =
        if s.offset = off then some ⟨s.data.length, s.more⟩ else p.segs[off]?) ∧
      ((p.segs[s.offset]? = some ⟨s.data.length, s.more⟩ ∧ q.buf = p.buf) ∨
        (p.segs[s.offset]? = none ∧ q.buf = writeAt p.buf s.offset s.data)) := by
  unfold Pending.place at h
  cases hfind : p.segs[s.offset]? with
  | none =>
    simp only [hfind, Option.some.injEq] at h
    subst h
    refine ⟨rfl, rfl, rfl, fun off => ?_, .inr ⟨rfl, rfl⟩⟩
    simp [Std.TreeMap.getElem?_insert]
  | some seg =>
    simp only [hfind, Option.ite_none_left_eq_some, not_or, not_not, Option.some.injEq] at h
    obtain ⟨⟨hlen, hmore⟩, rfl⟩ := h
    have hrec : p.segs[s.offset]? = some ⟨s.data.length, s.more⟩ := by rw [hfind, ← hlen, ← hmore]
    refine ⟨rfl, rfl, rfl, fun off => ?_, .inl ⟨hfind.symm.trans hrec, rfl⟩⟩
    split
    · next hoff => rw [← hoff, hrec]
    · rfl

private theorem close_cases {p q : Pending} {s : TpSegment} (h : p.close s = some q) :
    q.header = p.header ∧ q.segs = p.segs ∧ q.buf = p.buf ∧
      (s.more = true → q.lastSeen = p.lastSeen ∧ q.total = p.total) ∧
      (s.more = false → q.lastSeen = true ∧ q.total = s.offset + s.data.length ∧
        ∀ off seg, p.segs[off]? = some seg → off + seg.len ≤ s.offset + s.data.length) := by
  unfold Pending.close at h
  cases hmore : s.more with
  | true =>
    simp only [hmore, if_true, Option.some.injEq] at h
    subst h
    simp
  | false =>
    simp only [hmore, Bool.false_eq_true, if_false, Option.ite_none_left_eq_some,
      Option.some.injEq] at h
    obtain ⟨hany, rfl⟩ := h
    refine ⟨rfl, rfl, rfl, by simp, fun _ => ⟨rfl, rfl, fun off seg hseg => ?_⟩⟩
    by_contra hpast
    refine hany (List.any_eq_true.2 ⟨(off, seg), ?_, by simpa using hpast⟩)
    exact Std.TreeMap.mem_toList_iff_getElem?_eq_some.2 hseg

/-- What `accept` accepts, it changes as `Accepted` says. -/
theorem Pending.accept_accepted {p p' : Pending} {s : TpSegment} (h : p.accept s = some p') :
    Accepted p s p' := by
  unfold accept at h
  split at h
  · next hext =>
    obtain ⟨q', hbind, rfl⟩ := Option.map_eq_some_iff.1 h
    obtain ⟨q, hplace, hclose⟩ := Option.bind_eq_some_iff.1 hbind
    obtain ⟨hh, hl, ht, hsegs', hbuf'⟩ := Pending.place_cases hplace
    obtain ⟨hh', hsegs, hbuf, hmore, hlast⟩ := close_cases hclose
    refine ⟨hh'.trans hh, (p.extentOk_iff s).1 hext, ?_, ?_, ?_, ?_⟩
    · simpa only [hsegs] using hsegs'
    · simpa only [hbuf] using hbuf'
    · intro hm
      exact ⟨(hmore hm).1.trans hl, (hmore hm).2.trans ht⟩
    · intro hm
      obtain ⟨h1, h2, h3⟩ := hlast hm
      refine ⟨h1, h2, fun off seg hseg => ?_⟩
      have hq : q.segs[off]? = some seg := by
        rw [← hsegs]
        exact hseg
      exact h2 ▸ h3 off seg hq
  · cases h

/-! ## The invariant of one transfer -/

/-- A transfer holds what the segments accepted for it say, `acc` in the order of acceptance. -/
structure Reflects (p : Pending) (acc : List TpSegment) : Prop where
  header : ∀ s ∈ acc, s.header = p.header
  recorded : ∀ {off seg}, p.segs[off]? = some seg →
    ∃ s ∈ acc, s.offset = off ∧ s.data.length = seg.len ∧ s.more = seg.more
  placed : ∀ s ∈ acc, p.segs[s.offset]? = some ⟨s.data.length, s.more⟩
  moreData : ∀ s ∈ acc, s.more = true → s.data ≠ []
  extent : p.lastSeen = true → ∀ s ∈ acc, s.offset + s.data.length ≤ p.total ∧
    (s.more = false → s.offset + s.data.length = p.total)
  last : p.lastSeen = true ↔ ∃ s ∈ acc, s.more = false
  bytes : ∀ {b s}, acc.find? (fun s => decide (s.Covers b)) = some s →
    (∀ s' ∈ acc, s'.Covers b → s'.offset = s.offset) →
    p.buf.getD b 0 = s.data.getD (b - s.offset) 0

namespace Reflects

/-- A fresh transfer reflects no segment. -/
theorem fresh (hdr : MessageHeader) : Reflects { header := hdr } [] := by
  refine ⟨?_, ?_, ?_, ?_, ?_, ?_, ?_⟩ <;> simp

variable {p p' : Pending} {acc : List TpSegment} {s : TpSegment}

private theorem bytes_accept (h : Reflects p acc) (hp : Accepted p s p') {b : Nat} {s₀ : TpSegment}
    (hfind : (acc ++ [s]).find? (fun s => decide (s.Covers b)) = some s₀)
    (hone : ∀ s' ∈ acc ++ [s], s'.Covers b → s'.offset = s₀.offset) :
    p'.buf.getD b 0 = s₀.data.getD (b - s₀.offset) 0 := by
  rw [List.find?_append] at hfind
  cases hacc : acc.find? (fun s => decide (s.Covers b)) with
  | some s₁ =>
    -- An earlier segment holds the byte, so the new one is a repeat of it or lands elsewhere.
    simp only [hacc, Option.some_or, Option.some.injEq] at hfind
    subst hfind
    have hold := h.bytes hacc fun s' hs' => hone s' (List.mem_append_left _ hs')
    rcases hp.buf with ⟨_, hbuf⟩ | ⟨hfree, hbuf⟩
    · rw [hbuf, hold]
    · have hmiss : ¬ (s.offset ≤ b ∧ b < s.offset + s.data.length) := by
        intro hc
        have hoff := hone s (by simp) hc
        rw [hoff, h.placed s₁ (List.mem_of_find?_eq_some hacc)] at hfree
        cases hfree
      rw [hbuf, getD_writeAt, if_neg hmiss, hold]
  | none =>
    simp only [hacc, Option.none_or] at hfind
    have hs₀ : s₀ = s := by simpa using List.mem_of_find?_eq_some hfind
    have hc : s₀.Covers b := by simpa using List.find?_some hfind
    subst hs₀
    rcases hp.buf with ⟨hdup, _⟩ | ⟨_, hbuf⟩
    · -- A repeat covers what the segment it repeats covers, and nothing covered `b` before.
      obtain ⟨s', hs', hoff, hlen, _⟩ := h.recorded hdup
      have hcov : s'.Covers b := by
        obtain ⟨h1, h2⟩ := hc
        constructor <;> simp only at hlen h1 h2 ⊢ <;> omega
      exact absurd hcov (by simpa using List.find?_eq_none.1 hacc s' hs')
    · have hin : s₀.offset ≤ b ∧ b < s₀.offset + s₀.data.length := hc
      rw [hbuf, getD_writeAt, if_pos hin]

/-- **One accepted segment** keeps the invariant, with the segment added to those accepted. -/
theorem accept (h : Reflects p acc) (haccept : p.accept s = some p') (hhdr : s.header = p.header)
    (hdata : s.more = true → s.data ≠ []) : Reflects p' (acc ++ [s]) := by
  have hp := p.accept_accepted haccept
  have hplaced : ∀ t ∈ acc ++ [s], p'.segs[t.offset]? = some ⟨t.data.length, t.more⟩ := by
    intro t ht
    rw [hp.segs]
    split
    · next hoff =>
      -- A repeat was compared with the record, so both say the same of this offset.
      rcases List.mem_append.1 ht with ht | ht
      · rcases hp.buf with ⟨hdup, _⟩ | ⟨hfree, _⟩
        · rw [← hdup, hoff, h.placed t ht]
        · rw [hoff, h.placed t ht] at hfree
          cases hfree
      · rw [List.mem_singleton.1 ht]
    · next hoff =>
      rcases List.mem_append.1 ht with ht | ht
      · exact h.placed t ht
      · exact absurd (by rw [List.mem_singleton.1 ht]) hoff
  refine ⟨?_, ?_, hplaced, ?_, ?_, ?_, fun hfind hone => h.bytes_accept hp hfind hone⟩
  · intro t ht
    rw [hp.header]
    rcases List.mem_append.1 ht with ht | ht
    · exact h.header t ht
    · rw [List.mem_singleton.1 ht, hhdr]
  · intro off seg hseg
    rw [hp.segs] at hseg
    split at hseg
    · next hoff =>
      cases hseg
      exact ⟨s, by simp, hoff, rfl, rfl⟩
    · obtain ⟨t, ht, hrest⟩ := h.recorded hseg
      exact ⟨t, List.mem_append_left _ ht, hrest⟩
  · intro t ht
    rcases List.mem_append.1 ht with ht | ht
    · exact h.moreData t ht
    · rw [List.mem_singleton.1 ht]
      exact hdata
  · intro hseen t ht
    cases hmore : s.more with
    | true =>
      obtain ⟨hl, htot⟩ := hp.more hmore
      rw [hl] at hseen
      rw [htot]
      rcases List.mem_append.1 ht with ht | ht
      · exact h.extent hseen t ht
      · rw [List.mem_singleton.1 ht]
        exact hp.extent hseen
    | false =>
      obtain ⟨_, htot, hbound⟩ := hp.last hmore
      refine ⟨hbound t.offset ⟨t.data.length, t.more⟩ (hplaced t ht), fun htm => ?_⟩
      rcases List.mem_append.1 ht with ht | ht
      · -- Two last segments agree on the total: the second was checked against the first.
        have hseen' : p.lastSeen = true := h.last.2 ⟨t, ht, htm⟩
        rw [htot, (hp.extent hseen').2 hmore, (h.extent hseen' t ht).2 htm]
      · rw [List.mem_singleton.1 ht, htot]
  · cases hmore : s.more with
    | true =>
      rw [(hp.more hmore).1, h.last]
      simp [hmore]
    | false =>
      simp only [(hp.last hmore).1, true_iff]
      exact ⟨s, by simp, hmore⟩

end Reflects

/-! ## Completion -/

/-- What a completed message owes the segments accepted for its transfer: the chosen ones partition
it, exactly one of them is a last segment and it ends the message, all carry the message's header,
and each byte is that of the first accepted segment that covers it. -/
structure Assembled (acc : List TpSegment) (hdr : MessageHeader) (payload : List UInt8)
    (chosen : List TpSegment) : Prop where
  accepted : ∀ s ∈ chosen, s ∈ acc
  nodup : chosen.Nodup
  partition : Partitions TpSegment.offset (fun s => s.data.length) chosen payload.length
  last : ∃! s, s ∈ chosen ∧ s.more = false
  lastEnd : ∀ s ∈ chosen, s.more = false → s.offset + s.data.length = payload.length
  header : ∀ s ∈ acc, s.header = hdr
  bytes : ∀ b < payload.length, ∃ s, acc.find? (fun s => decide (s.Covers b)) = some s ∧
    payload[b]? = s.data[b - s.offset]?

/-- The contiguity walk succeeds exactly on a tiling. -/
theorem walk_eq_some_iff {l : List (Nat × Segment)} {cursor e : Nat} :
    walk l cursor = some e ↔ Tiles Prod.fst (fun x => x.2.len) cursor l e := by
  induction l generalizing cursor with
  | nil => simp [walk, Tiles]
  | cons x rest ih =>
    obtain ⟨off, seg⟩ := x
    simp only [walk, Option.ite_none_left_eq_some, not_not, Tiles, ih]

namespace Reflects

variable {p : Pending} {acc : List TpSegment} {payload : List UInt8}

/-- The recorded extents of a finished transfer, each with an accepted segment it records. -/
private theorem exists_tiling (h : Reflects p acc) (hseen : p.lastSeen = true)
    (hwalk : walk p.segs.toList 0 = some p.total) :
    ∃ all : List TpSegment, Tiles TpSegment.offset (fun s => s.data.length) 0 all p.total ∧
      (∀ s ∈ all, s ∈ acc) ∧ (all.map TpSegment.offset).Nodup ∧
      ∀ t ∈ acc, ∃ s ∈ all, s.offset = t.offset ∧ s.data.length = t.data.length ∧
        s.more = t.more := by
  obtain ⟨s₀, -, -⟩ := h.last.1 hseen
  have : Nonempty TpSegment := ⟨s₀⟩
  have hrec : ∀ x : Nat × Segment, x ∈ p.segs.toList →
      ∃ s ∈ acc, s.offset = x.1 ∧ s.data.length = x.2.len ∧ s.more = x.2.more := by
    rintro ⟨off, seg⟩ hx
    exact h.recorded (Std.TreeMap.mem_toList_iff_getElem?_eq_some.1 hx)
  choose! f hf using hrec
  refine ⟨p.segs.toList.map f, ?_, ?_, ?_, ?_⟩
  · exact (walk_eq_some_iff.1 hwalk).map f fun x hx => ⟨(hf x hx).2.1, (hf x hx).2.2.1⟩
  · intro s hs
    obtain ⟨x, hx, rfl⟩ := List.mem_map.1 hs
    exact (hf x hx).1
  · rw [List.map_map, List.Nodup, List.pairwise_map]
    refine (Std.TreeMap.ordered_keys_toList (t := p.segs)).imp_of_mem fun {x y} hx hy hlt => ?_
    simp only [Function.comp_apply, (hf x hx).2.1, (hf y hy).2.1]
    exact Nat.ne_of_lt (Nat.compare_eq_lt.1 hlt)
  · intro t ht
    have hx : (t.offset, ⟨t.data.length, t.more⟩) ∈ p.segs.toList :=
      Std.TreeMap.mem_toList_iff_getElem?_eq_some.2 (h.placed t ht)
    exact ⟨_, List.mem_map_of_mem hx, (hf _ hx).2⟩

/-- Each byte of a finished transfer is that of the first accepted segment that covers it. -/
private theorem bytes_finish (h : Reflects p acc) {all : List TpSegment}
    (htiles : Tiles TpSegment.offset (fun s => s.data.length) 0 all p.total)
    (hacc : ∀ s ∈ all, s ∈ acc)
    (hrep : ∀ t ∈ acc, ∃ s ∈ all, s.offset = t.offset ∧ s.data.length = t.data.length ∧
      s.more = t.more) {b : Nat} (hb : b < p.total) :
    ∃ s, acc.find? (fun s => decide (s.Covers b)) = some s ∧
      (resize p.buf p.total)[b]? = s.data[b - s.offset]? := by
  obtain ⟨i, hi⟩ := htiles.exists_covers (Nat.zero_le b) hb
  have hsome : (acc.find? fun s => decide (s.Covers b)).isSome := by
    rw [List.find?_isSome]
    exact ⟨all.get i, hacc _ (List.get_mem all i), decide_eq_true hi⟩
  obtain ⟨s, hs⟩ := Option.isSome_iff_exists.1 hsome
  have hscov : s.Covers b := by simpa using List.find?_some hs
  -- Any accepted segment over `b` has a tile with its extent, and only one tile covers `b`.
  have hone : ∀ t ∈ acc, t.Covers b → t.offset = (all.get i).offset := by
    intro t ht hcov
    obtain ⟨u, hu, hoff, hlen, -⟩ := hrep t ht
    obtain ⟨j, rfl⟩ := List.get_of_mem hu
    have hj : Covers TpSegment.offset (fun s => s.data.length) (all.get j) b := by
      obtain ⟨h1, h2⟩ := hcov
      constructor <;> simp only at hlen h1 h2 ⊢ <;> omega
    rw [← hoff, htiles.covers_unique hj hi]
  refine ⟨s, hs, ?_⟩
  have hbyte := h.bytes hs fun t ht hcov => by
    rw [hone t ht hcov, hone s (List.mem_of_find?_eq_some hs) hscov]
  have hin : b - s.offset < s.data.length := by
    obtain ⟨h1, h2⟩ := hscov
    simp only at h1 h2
    omega
  rw [← getD_resize hb, List.getD_eq_getElem?_getD, List.getD_eq_getElem?_getD] at hbyte
  rw [List.getElem?_eq_getElem (by simpa using hb), List.getElem?_eq_getElem hin] at hbyte ⊢
  simpa using hbyte

/-- **A finished transfer is made of accepted segments.** -/
theorem assembled (h : Reflects p acc) (hdone : p.finish = some payload) :
    ∃ chosen, Assembled acc p.header payload chosen := by
  simp only [Pending.finish, Option.ite_none_right_eq_some, Option.some.injEq] at hdone
  obtain ⟨⟨hseen, hwalk⟩, rfl⟩ := hdone
  obtain ⟨all, htiles, hacc, hoffs, hrep⟩ := h.exists_tiling hseen hwalk
  have hbytes := fun b (hb : b < p.total) => h.bytes_finish htiles hacc hrep hb
  have hend : ∀ s ∈ all, s.more = false → s.offset + s.data.length = p.total :=
    fun s hs hm => (h.extent hseen s (hacc s hs)).2 hm
  have hnodup : all.Nodup := hoffs.of_map _
  obtain ⟨t, ht, htm⟩ := h.last.1 hseen
  obtain ⟨s₀, hs₀, -, -, hs₀m⟩ := hrep t ht
  have hs₀m : s₀.more = false := hs₀m.trans htm
  by_cases hempty : ∀ s ∈ all, s.more = false → s.data.length = 0
  · -- The last segment is empty, so it stands at the total, where only one offset is recorded.
    refine ⟨all, hacc, hnodup, ?_, ⟨s₀, ⟨hs₀, hs₀m⟩, ?_⟩, ?_, h.header, ?_⟩
    · simpa using htiles.partitions
    · rintro s ⟨hs, hm⟩
      have h1 := hend s hs hm
      have h2 := hend s₀ hs₀ hs₀m
      have h3 := hempty s hs hm
      have h4 := hempty s₀ hs₀ hs₀m
      exact List.inj_on_of_nodup_map hoffs hs hs₀ (by omega)
    · simpa using hend
    · simpa using hbytes
  · -- A non-empty last segment ends the message; an empty one beside it is left out.
    push Not at hempty
    obtain ⟨s₁, hs₁, hs₁m, hs₁n⟩ := hempty
    have hmem : ∀ s, s ∈ all.filter (fun s => s.data.length != 0) ↔
        s ∈ all ∧ s.data.length ≠ 0 := by simp
    refine ⟨all.filter fun s => s.data.length != 0, fun s hs => hacc s ((hmem s).1 hs).1,
      hnodup.filter _, ?_, ⟨s₁, ⟨(hmem s₁).2 ⟨hs₁, hs₁n⟩, hs₁m⟩, ?_⟩, ?_, h.header, ?_⟩
    · simpa using htiles.filter_len.partitions
    · rintro s ⟨hs, hm⟩
      obtain ⟨hs, hn⟩ := (hmem s).1 hs
      obtain ⟨i, rfl⟩ := List.get_of_mem hs
      obtain ⟨j, rfl⟩ := List.get_of_mem hs₁
      rw [htiles.last_unique (hend _ hs hm) (hend _ hs₁ hs₁m) hn hs₁n]
    · intro s hs hm
      rw [length_resize]
      exact hend s ((hmem s).1 hs).1 hm
    · simpa using hbytes

end Reflects

/-! ## The invariant of a run -/

inductive Op where
  | feed (segment : Buffer)
  | mainFunction (elapsed : Int)

def Reassembler.step (r : Reassembler) : Op → Reassembler
  | .feed segment => (r.feed segment).2
  | .mainFunction elapsed => (r.mainFunction elapsed).2

def Reassembler.run (r : Reassembler) (ops : List Op) : Reassembler := ops.foldl step r

/-- The segment a call makes the reassembler accept for the transfer `key`, if any. -/
def Reassembler.acceptedBy (r : Reassembler) (key : Nat) : Op → List TpSegment
  | .feed (.bytes bytes) =>
    match decodeSegment bytes with
    | some s => if s.key = key ∧ (r.feedSegment s).1.status ≠ .kError then [s] else []
    | none => []
  | _ => []

/-- The segments accepted for `key` over a sequence of calls since its transfer was created: the log
starts over whenever the transfer is gone. -/
def Reassembler.transferLog (key : Nat) : Reassembler → List TpSegment → List Op → List TpSegment
  | _, log, [] => log
  | r, log, op :: ops =>
    let r' := r.step op
    r'.transferLog key (if key ∈ r'.pending then log ++ r.acceptedBy key op else []) ops

/-- The transfer `key`, if there is one, reflects its log. -/
structure Tracks (r : Reassembler) (key : Nat) (log : List TpSegment) : Prop where
  absent : r.pending[key]? = none → log = []
  present : ∀ {p}, r.pending[key]? = some p →
    transferKey p.header.messageId p.header.requestId = key ∧ Reflects p log

namespace Tracks

variable {r r' : Reassembler} {key : Nat} {log : List TpSegment}

/-- A call that leaves the transfer alone leaves its log alone. -/
private theorem of_unchanged (h : Tracks r key log) (hsame : r'.pending[key]? = r.pending[key]?) :
    Tracks r' key (if key ∈ r'.pending then log ++ [] else []) := by
  rw [List.append_nil]
  refine ⟨fun hnone => ?_, fun {p} hsome => ?_⟩
  · rw [h.absent (hsame ▸ hnone), ite_self]
  · have hmem : key ∈ r'.pending := by
      rw [← Std.TreeMap.isSome_getElem?_iff_mem, hsome]
      rfl
    rw [if_pos hmem]
    exact h.present (hsame ▸ hsome)

private theorem of_absent (hnone : r'.pending[key]? = none) (l : List TpSegment) :
    Tracks r' key (if key ∈ r'.pending then l else []) := by
  have hmem : key ∉ r'.pending := by
    rw [← Std.TreeMap.isSome_getElem?_iff_mem, hnone]
    simp
  rw [if_neg hmem]
  refine ⟨fun _ => rfl, fun hsome => ?_⟩
  rw [hnone] at hsome
  cases hsome

/-- A segment whose header passes the comparison has the whole header of its transfer. -/
theorem transfer {s : TpSegment} (h : Tracks r s.key log)
    (hhdr : sameHeader (r.transfer s).header s.header = true) :
    s.header = (r.transfer s).header ∧ Reflects (r.transfer s) log := by
  cases hfind : r.pending[s.key]? with
  | none =>
    have hfresh : r.transfer s = { header := s.header } := by simp [Reassembler.transfer, hfind]
    rw [hfresh, h.absent hfind]
    exact ⟨rfl, Reflects.fresh _⟩
  | some p =>
    have hfound : r.transfer s = p := by simp [Reassembler.transfer, hfind]
    obtain ⟨hkey, hreflects⟩ := h.present hfind
    rw [hfound] at hhdr ⊢
    refine ⟨?_, hreflects⟩
    obtain ⟨hm, hr⟩ := transferKey_inj (hkey.trans (by rfl) : _ = transferKey _ _)
    simp only [sameHeader, Bool.and_eq_true, beq_iff_eq] at hhdr
    obtain ⟨⟨⟨hpv, hiv⟩, hmt⟩, hrc⟩ := hhdr
    cases hp : p.header
    cases hs : s.header
    simp_all

/-- One decoded segment. -/
private theorem feedSegment {s : TpSegment} (h : Tracks r key log)
    (hdata : s.more = true → s.data ≠ []) :
    Tracks (r.feedSegment s).2 key (if key ∈ (r.feedSegment s).2.pending then
      log ++ (if s.key = key ∧ (r.feedSegment s).1.status ≠ .kError then [s] else []) else []) := by
  have hstep := feedSegment_cases r s
  generalize r.feedSegment s = out at hstep
  by_cases hkey : s.key = key
  · subst hkey
    cases hstep with
    | full hnone hfull => exact of_absent hnone _
    | dropped => exact of_absent (by simp [Reassembler.drop]) _
    | completed hhdr haccept hdone => exact of_absent (by simp [Reassembler.drop]) _
    | @placed p hhdr haccept hopen =>
      obtain ⟨hheader, hreflects⟩ := h.transfer hhdr
      have hp := hreflects.accept haccept hheader hdata
      have hph : p.header = s.header := by
        rw [(Pending.accept_accepted haccept).header, hheader]
      have hmem : s.key ∈ r.pending.insert s.key p := Std.TreeMap.mem_insert_self
      simp only [hmem, if_true, ne_eq, reduceCtorEq, not_false_eq_true, and_self]
      refine ⟨fun hnone => ?_, fun {q} hsome => ?_⟩
      · simp at hnone
      · rw [Std.TreeMap.getElem?_insert_self, Option.some.injEq] at hsome
        subst hsome
        exact ⟨by rw [hph]; rfl, hp⟩
  · have hnot : ∀ st : Status, ¬ (s.key = key ∧ st ≠ .kError) := fun st hst => hkey hst.1
    simp only [if_neg (hnot _)]
    apply h.of_unchanged
    cases hstep with
    | full hnone hfull => rfl
    | dropped => simp [Reassembler.drop, Std.TreeMap.getElem?_erase, hkey]
    | completed hhdr haccept hdone =>
      simp [Reassembler.drop, Std.TreeMap.getElem?_erase, hkey]
    | placed hhdr haccept hopen => simp [Std.TreeMap.getElem?_insert, hkey]

/-- **One call** keeps every transfer in step with its log. -/
theorem step (h : Tracks r key log) (op : Op) :
    Tracks (r.step op) key
      (if key ∈ (r.step op).pending then log ++ r.acceptedBy key op else []) := by
  cases op with
  | feed segment =>
    cases segment with
    | null len => exact h.of_unchanged rfl
    | bytes bytes =>
      cases hdec : decodeSegment bytes with
      | none =>
        have hstep : r.step (.feed (.bytes bytes)) = r := by
          simp [Reassembler.step, Reassembler.feed, hdec]
        have hacc : r.acceptedBy key (.feed (.bytes bytes)) = [] := by
          simp [Reassembler.acceptedBy, hdec]
        rw [hstep, hacc]
        exact h.of_unchanged rfl
      | some s =>
        have hstep : r.step (.feed (.bytes bytes)) = (r.feedSegment s).2 := by
          simp [Reassembler.step, Reassembler.feed, hdec]
        have hacc : r.acceptedBy key (.feed (.bytes bytes)) =
            if s.key = key ∧ (r.feedSegment s).1.status ≠ .kError then [s] else [] := by
          simp [Reassembler.acceptedBy, hdec]
        rw [hstep, hacc]
        exact h.feedSegment (decodeSegment_more hdec)
  | mainFunction elapsed =>
    have hget := r.getElem?_mainFunction elapsed key
    cases hold : r.pending[key]? with
    | none =>
      refine of_absent ?_ _
      rw [Reassembler.step, hget, hold]
      rfl
    | some p =>
      simp only [hold, Option.map_some, Option.filter_some] at hget
      split at hget
      · have hmem : key ∈ (r.mainFunction elapsed).2.pending := by
          rw [← Std.TreeMap.isSome_getElem?_iff_mem, hget]
          rfl
        simp only [Reassembler.step, hmem, if_true, Reassembler.acceptedBy, List.append_nil]
        obtain ⟨hkey, hr⟩ := h.present hold
        refine ⟨fun hnone => ?_, fun {q} hsome => ?_⟩
        · rw [hget] at hnone
          cases hnone
        · rw [hget, Option.some.injEq] at hsome
          subst hsome
          exact ⟨hkey, hr.header, hr.recorded, hr.placed, hr.moreData, hr.extent, hr.last,
            hr.bytes⟩
      · exact of_absent hget _

/-- **A run of calls** keeps every transfer in step with its log. -/
theorem run (h : Tracks r key log) (ops : List Op) :
    Tracks (r.run ops) key (r.transferLog key log ops) := by
  induction ops generalizing r log with
  | nil => exact h
  | cons op ops ih => exact ih (h.step op)

end Tracks

/-! ## Every completion of every run -/

/-- A reassembler as constructed. -/
def Reassembler.fresh (maxMessage maxConcurrent : Nat) (timeout : Int) : Reassembler :=
  { maxMessage := maxMessage, maxConcurrent := maxConcurrent, timeout := timeout }

theorem Tracks.fresh (maxMessage maxConcurrent : Nat) (timeout : Int) (key : Nat) :
    Tracks (Reassembler.fresh maxMessage maxConcurrent timeout) key [] :=
  ⟨fun _ => rfl, fun hsome => by simp [Reassembler.fresh] at hsome⟩

/-- **Completion is sound.** Whenever a `feed`, after any calls on a fresh reassembler, returns
`kComplete`, the returned message is assembled from the segments accepted for its key since the
transfer was created, the completing one included. -/
theorem feed_complete_sound (maxMessage maxConcurrent : Nat) (timeout : Int) (ops : List Op)
    (segment : Buffer) :
    let r₀ := Reassembler.fresh maxMessage maxConcurrent timeout
    let r := r₀.run ops
    let res := (r.feed segment).1
    let key := transferKey res.header.messageId res.header.requestId
    res.status = .kComplete →
      ∃ chosen, Assembled (r₀.transferLog key [] ops ++ r.acceptedBy key (.feed segment))
        res.header res.payload chosen := by
  intro r₀ r res key hdone
  cases segment with
  | null len => cases hdone
  | bytes bytes =>
    cases hdec : decodeSegment bytes with
    | none =>
      have hres : res = {} := by simp [res, Reassembler.feed, hdec]
      rw [hres] at hdone
      cases hdone
    | some s =>
      have hres : res = (r.feedSegment s).1 := by simp [res, Reassembler.feed, hdec]
      have hstep := feedSegment_cases r s
      have hacc : ∀ k, r.acceptedBy k (.feed (.bytes bytes)) =
          if s.key = k ∧ res.status ≠ .kError then [s] else [] := by
        intro k
        simp [Reassembler.acceptedBy, hdec, hres]
      generalize r.feedSegment s = out at hstep hres
      cases hstep with
      | full hnone hfull => rw [hres] at hdone; cases hdone
      | dropped => rw [hres] at hdone; cases hdone
      | placed hhdr haccept hopen => rw [hres] at hdone; cases hdone
      | @completed p payload hhdr haccept hfinish =>
        have htracks := (Tracks.fresh maxMessage maxConcurrent timeout s.key).run ops
        obtain ⟨hheader, hreflects⟩ := htracks.transfer hhdr
        have hp := hreflects.accept haccept hheader (decodeSegment_more hdec)
        have hph : p.header = s.header := by
          rw [(Pending.accept_accepted haccept).header, hheader]
        have hkey : key = s.key := by simp only [key, hres, hph, TpSegment.key]
        rw [hacc, hkey, hres]
        simp only [ne_eq, reduceCtorEq, not_false_eq_true, and_self, if_true]
        exact hp.assembled hfinish

/-- A 17-byte message fed last segment first: the second feed completes it. -/
theorem feed_complete_sound_two_segments :
    let hdr : MessageHeader := ⟨0x12345678, 0x00010002, 1, 1, 0, 0⟩
    let ops := [Op.feed (.bytes (segmentFrame hdr 0 16 false [0xCD])), .mainFunction 10]
    let first := Buffer.bytes (segmentFrame hdr 0 0 true (List.replicate 16 0xAB))
    let r₀ := Reassembler.fresh 64 1 1000
    let res := ((r₀.run ops).feed first).1
    let key := transferKey res.header.messageId res.header.requestId
    res = ⟨.kComplete, hdr, List.replicate 16 0xAB ++ [0xCD]⟩ ∧
      ∃ chosen, Assembled (r₀.transferLog key [] ops ++ (r₀.run ops).acceptedBy key (.feed first))
        res.header res.payload chosen := by
  intro hdr ops first r₀ res key
  have hres : res = ⟨.kComplete, hdr, List.replicate 16 0xAB ++ [0xCD]⟩ := by decide +kernel
  exact ⟨hres, feed_complete_sound 64 1 1000 ops first (congrArg Result.status hres)⟩

end Tc8Harness.SomeipTp
