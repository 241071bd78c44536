import Std.Data.TreeMap.Lemmas
import Tc8Harness.Lib.ByteBuffer
import Tc8Harness.SomeipTp.Wire

/-!
# The SOME/IP-TP reassembler

`Reassembler::feed` and `Reassembler::mainFunction` of `src/autosar/someiptp.cpp` over the state they
share: one `Pending` per transfer key, each with its buffer and its offset map. Both `std::map`s are
`Std.TreeMap`s, so the walk over the offset map meets the offsets in ascending order as the source's
does. `feedSegment_cases` says once what a feed can do; the invariants of the later modules are read
off it.

`std::chrono::milliseconds` is an integer: the ages of the transfers are compared with the timeout
and never wrap in a run of realistic length.
-/

namespace Tc8Harness.SomeipTp

open ByteBuffer

/-! ## State -/

inductive Status where
  | kInProgress
  | kComplete
  | kError
  deriving DecidableEq, Repr

/-- `Reassembler::Result`, with the defaults of a freshly declared one. -/
structure Result where
  status : Status := .kError
  header : MessageHeader := ⟨0, 0, 0, 0, 0, 0⟩
  payload : List UInt8 := []
  deriving DecidableEq, Repr

/-- What the offset map records of a placed segment. -/
structure Segment where
  len : Nat
  more : Bool
  deriving DecidableEq, Repr

structure Pending where
  header : MessageHeader
  buf : List UInt8 := []
  segs : Std.TreeMap Nat Segment := ∅
  lastSeen : Bool := false
  total : Nat := 0
  age : Int := 0

structure Reassembler where
  maxMessage : Nat
  maxConcurrent : Nat
  timeout : Int
  pending : Std.TreeMap Nat Pending := ∅

/-! ## One transfer -/

/-- Once the final extent is known, a segment past it, or a second last one that ends elsewhere, is
inconsistent with it. -/
def Pending.extentOk (p : Pending) (s : TpSegment) : Bool :=
  !(p.lastSeen && (decide (s.offset + s.data.length > p.total) ||
    (!s.more && decide (s.offset + s.data.length ≠ p.total))))

/-- Place a segment at its offset, or check it against the one already there; `none` is a repeat
that disagrees on the length or the flag. -/
def Pending.place (p : Pending) (s : TpSegment) : Option Pending :=
  match p.segs[s.offset]? with
  | some seg =>
    if seg.len ≠ s.data.length ∨ seg.more ≠ s.more then none
    else some p
  | none =>
    some
      { p with
        segs := p.segs.insert s.offset ⟨s.data.length, s.more⟩
        buf := writeAt p.buf s.offset s.data }

/-- A last segment fixes the total; `none` when a recorded segment already reaches past it. -/
def Pending.close (p : Pending) (s : TpSegment) : Option Pending :=
  if s.more then some p
  else
    let total := s.offset + s.data.length
    if p.segs.toList.any fun offSeg => decide (offSeg.1 + offSeg.2.len > total) then none
    else some { p with lastSeen := true, total := total }

/-- All of `feed` that works on the found transfer; `none` drops the transfer. -/
def Pending.accept (p : Pending) (s : TpSegment) : Option Pending :=
  if p.extentOk s then
    ((p.place s).bind fun p => p.close s).map fun p => { p with age := 0 }
  else none

/-- The contiguity walk: the cursor at the end, or `none` at the first offset that is not it. -/
def walk : List (Nat × Segment) → Nat → Option Nat
  | [], cursor => some cursor
  | (off, seg) :: rest, cursor => if off ≠ cursor then none else walk rest (cursor + seg.len)

/-- The reassembled payload, once the recorded segments run from 0 to the total. -/
def Pending.finish (p : Pending) : Option (List UInt8) :=
  if p.lastSeen ∧ walk p.segs.toList 0 = some p.total then some (resize p.buf p.total) else none

/-! ## The reassembler -/

def Reassembler.drop (r : Reassembler) (key : Nat) : Reassembler :=
  { r with pending := r.pending.erase key }

/-- `feed` from the transfer on: `p` is the one found, or a fresh one. -/
def Reassembler.feedTransfer (r : Reassembler) (key : Nat) (p : Pending) (s : TpSegment) :
    Result × Reassembler :=
  match p.accept s with
  | none => ({}, r.drop key)
  | some p =>
    match p.finish with
    | some payload =>
      ({ status := .kComplete, header := p.header, payload := payload }, r.drop key)
    | none => ({ status := .kInProgress }, { r with pending := r.pending.insert key p })

def TpSegment.key (s : TpSegment) : Nat := transferKey s.header.messageId s.header.requestId

/-- The header fields beyond the routing key, which every segment of a transfer shares. -/
def sameHeader (h hdr : MessageHeader) : Bool :=
  h.protocolVersion == hdr.protocolVersion && h.interfaceVersion == hdr.interfaceVersion &&
    h.messageType == hdr.messageType && h.returnCode == hdr.returnCode

/-- `feed` on a decoded segment. -/
def Reassembler.feedSegment (r : Reassembler) (s : TpSegment) : Result × Reassembler :=
  if s.offset + s.data.length > r.maxMessage then ({}, r.drop s.key)
  else
    match r.pending[s.key]? with
    | none =>
      if r.pending.size ≥ r.maxConcurrent then ({}, r)
      else r.feedTransfer s.key { header := s.header } s
    | some p =>
      if sameHeader p.header s.header then r.feedTransfer s.key p s
      else ({}, r.drop s.key)

/-- `Reassembler::feed`. -/
def Reassembler.feed (r : Reassembler) (segment : Buffer) : Result × Reassembler :=
  match segment with
  | .null _ => ({}, r)
  | .bytes bytes =>
    match decodeSegment bytes with
    | none => ({}, r)
    | some s => r.feedSegment s

/-- `Reassembler::mainFunction`: ages every transfer and drops those whose age reaches the timeout.
The result lists the headers reported through `onTimeout`, in key order; the source returns how many
there are. -/
def Reassembler.mainFunction (r : Reassembler) (elapsed : Int) :
    List MessageHeader × Reassembler :=
  let aged := r.pending.map fun _ p => { p with age := p.age + elapsed }
  let expired := aged.toList.filter fun keyPending => decide (keyPending.2.age ≥ r.timeout)
  (expired.map fun keyPending => keyPending.2.header,
    { r with pending := aged.filter fun _ p => decide (p.age < r.timeout) })

/-! ## What a feed can do -/

/-- The transfer a segment with key `k` meets: the pending one, or a fresh one. -/
def Reassembler.transfer (r : Reassembler) (s : TpSegment) : Pending :=
  (r.pending[s.key]?).getD { header := s.header }

/-- The outcomes of `feedSegment`: refused with nothing changed for want of room, refused with the
transfer dropped, placed, or placed as the piece that completes the message. -/
inductive FeedStep (r : Reassembler) (s : TpSegment) : Result × Reassembler → Prop where
  | full (hnone : r.pending[s.key]? = none) (hfull : r.maxConcurrent ≤ r.pending.size) :
      FeedStep r s ({}, r)
  | dropped : FeedStep r s ({}, r.drop s.key)
  | placed {p : Pending} (hhdr : sameHeader (r.transfer s).header s.header = true)
      (haccept : (r.transfer s).accept s = some p) (hopen : p.finish = none) :
      FeedStep r s ({ status := .kInProgress }, { r with pending := r.pending.insert s.key p })
  | completed {p : Pending} {payload : List UInt8}
      (hhdr : sameHeader (r.transfer s).header s.header = true)
      (haccept : (r.transfer s).accept s = some p) (hdone : p.finish = some payload) :
      FeedStep r s
        ({ status := .kComplete, header := p.header, payload := payload }, r.drop s.key)

@[simp] theorem sameHeader_refl (h : MessageHeader) : sameHeader h h = true := by
  simp [sameHeader]

private theorem feedTransfer_cases (r : Reassembler) (s : TpSegment)
    (hhdr : sameHeader (r.transfer s).header s.header = true) :
    FeedStep r s (r.feedTransfer s.key (r.transfer s) s) := by
  unfold Reassembler.feedTransfer
  cases haccept : (r.transfer s).accept s with
  | none => exact .dropped
  | some p =>
    cases hfinish : p.finish with
    | none =>
      simp only [hfinish]
      exact .placed hhdr haccept hfinish
    | some payload =>
      simp only [hfinish]
      exact .completed hhdr haccept hfinish

/-- **Every feed is one of the four outcomes.** -/
theorem feedSegment_cases (r : Reassembler) (s : TpSegment) : FeedStep r s (r.feedSegment s) := by
  unfold Reassembler.feedSegment
  split
  · exact .dropped
  · cases hfind : r.pending[s.key]? with
    | none =>
      have hfresh : r.transfer s = { header := s.header } := by simp [Reassembler.transfer, hfind]
      dsimp only
      split
      · next hfull => exact .full hfind hfull
      · rw [← hfresh]
        exact feedTransfer_cases r s (by simp [hfresh])
    | some p =>
      have hfound : r.transfer s = p := by simp [Reassembler.transfer, hfind]
      dsimp only
      split
      · next hsame =>
        rw [← hfound] at hsame ⊢
        exact feedTransfer_cases r s hsame
      · exact .dropped

/-! ## What `mainFunction` does -/

/-- `mainFunction` leaves all of a transfer but its age, or nothing. -/
theorem Reassembler.getElem?_mainFunction (r : Reassembler) (elapsed : Int) (key : Nat) :
    (r.mainFunction elapsed).2.pending[key]? =
      ((r.pending[key]?).map fun p => { p with age := p.age + elapsed }).filter
        fun p => decide (p.age < r.timeout) := by
  simp [Reassembler.mainFunction]

/-- When nothing expires, every transfer is still there, older. -/
theorem Reassembler.getElem?_mainFunction_of_nil {r : Reassembler} {elapsed : Int}
    (h : (r.mainFunction elapsed).1 = []) (key : Nat) :
    (r.mainFunction elapsed).2.pending[key]? =
      (r.pending[key]?).map fun p => { p with age := p.age + elapsed } := by
  rw [getElem?_mainFunction]
  cases hfind : r.pending[key]? with
  | none => rfl
  | some p =>
    have hmem : (key, { p with age := p.age + elapsed }) ∈
        (r.pending.map fun _ p => { p with age := p.age + elapsed }).toList := by
      simp [hfind]
    simp only [mainFunction, List.map_eq_nil_iff, List.filter_eq_nil_iff] at h
    have hyoung := h _ hmem
    simp only [ge_iff_le, decide_eq_true_eq, not_le] at hyoung
    simp [Option.filter_some, hyoung]

end Tc8Harness.SomeipTp
