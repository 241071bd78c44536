import Tc8Harness.Lib.Observe
import Tc8Harness.SomeipTp.Soundness

/-!
# Transfers do not disturb each other

`feedSegment_eq` rewrites `feed` as an update of one map entry: `outcome` computes the result and the
entry's new value from the entry alone, and `put` writes it back. The rest is a simulation. `Alone`
relates a reassembler to one that has only ever seen the calls that concern one key, and
`transfers_isolated` concludes that no interleaving with other transfers, malformed segments
included, shows in the results of a transfer.
-/

namespace Tc8Harness.SomeipTp

open Observe

/-! ## Whose segment it is -/

/-- The `(message_id, request_id)` a segment carries, whether or not the rest of it decodes; `none`
when it is too short to carry them. -/
def Buffer.ids? : Buffer → Option (UInt32 × UInt32)
  | .null _ => none
  | .bytes b => if b.length < 12 then none else some (get32be b, get32be (b.drop 8))

/-- A feed of the key's segment, or a `mainFunction` call. -/
def Op.concerns (ids : UInt32 × UInt32) : Op → Bool
  | .feed segment => decide (segment.ids? = some ids)
  | .mainFunction _ => true

/-- What `feed` returns for a segment of the key. -/
def Reassembler.resultFor (ids : UInt32 × UInt32) (r : Reassembler) : Op → List Result
  | .feed segment => if segment.ids? = some ids then [(r.feed segment).1] else []
  | .mainFunction _ => []

/-- The results returned for the key's segments over a sequence of calls. -/
def Reassembler.resultsFor (ids : UInt32 × UInt32) (r : Reassembler) (ops : List Op) :
    List Result :=
  observe Reassembler.step (Reassembler.resultFor ids) r ops

/-- A segment that would open a transfer finds `max_concurrent` of them. -/
def Reassembler.TurnsAway (r : Reassembler) (s : TpSegment) : Prop :=
  s.offset + s.data.length ≤ r.maxMessage ∧ r.pending[s.key]? = none ∧
    r.maxConcurrent ≤ r.pending.size

/-- The call does not meet the bound on concurrent transfers. -/
def Reassembler.HasRoom (r : Reassembler) : Op → Prop
  | .feed (.bytes bytes) => ∀ s, decodeSegment bytes = some s → ¬ r.TurnsAway s
  | _ => True

/-- `max_concurrent` turns no segment of the sequence away. -/
def NeverFull (r : Reassembler) (ops : List Op) : Prop :=
  Along Reassembler.step Reassembler.HasRoom r ops

/-- A decoded segment's key is read from the ids it carries. -/
theorem ids?_of_decodeSegment {bytes : List UInt8} {s : TpSegment}
    (h : decodeSegment bytes = some s) :
    (Buffer.bytes bytes).ids? = some (s.header.messageId, s.header.requestId) := by
  simp only [decodeSegment, Option.ite_none_left_eq_some, Option.some.injEq] at h
  obtain ⟨hlen, -, -, -, -, rfl⟩ := h
  have hids : ¬ bytes.length < 12 := by
    simp only [kSegmentHeaderLen, kSomeipHeaderLen, kTpHeaderLen] at hlen
    omega
  simp [Buffer.ids?, hids]

/-- Distinct ids give distinct keys, so a segment of other ids has another key. -/
theorem key_eq_iff {s : TpSegment} {ids : UInt32 × UInt32} :
    s.key = transferKey ids.1 ids.2 ↔ (s.header.messageId, s.header.requestId) = ids := by
  constructor
  · intro h
    obtain ⟨hm, hr⟩ := transferKey_inj h
    exact Prod.ext hm hr
  · rintro rfl
    rfl

/-! ## A feed is an update of one entry -/

/-- The entry `feed` leaves behind and the result it returns, from the entry found. -/
def outcome (maxMessage : Nat) (found : Option Pending) (s : TpSegment) :
    Result × Option Pending :=
  if s.offset + s.data.length > maxMessage then ({}, none)
  else
    let p := found.getD { header := s.header }
    if sameHeader p.header s.header then
      match p.accept s with
      | none => ({}, none)
      | some p =>
        match p.finish with
        | some payload => ({ status := .kComplete, header := p.header, payload := payload }, none)
        | none => ({ status := .kInProgress }, some p)
    else ({}, none)

def Reassembler.put (r : Reassembler) (key : Nat) : Option Pending → Reassembler
  | none => r.drop key
  | some p => { r with pending := r.pending.insert key p }

theorem Reassembler.getElem?_put (r : Reassembler) (key : Nat) (entry : Option Pending) (k : Nat) :
    (r.put key entry).pending[k]? = if key = k then entry else r.pending[k]? := by
  cases entry with
  | none => simp [put, drop, Std.TreeMap.getElem?_erase]
  | some p => simp [put, Std.TreeMap.getElem?_insert]

private theorem feedTransfer_eq (r : Reassembler) (s : TpSegment) {p : Pending}
    (hfit : ¬ s.offset + s.data.length > r.maxMessage) (hhdr : sameHeader p.header s.header = true)
    {found : Option Pending} (hp : found.getD { header := s.header } = p) :
    r.feedTransfer s.key p s =
      ((outcome r.maxMessage found s).1, r.put s.key (outcome r.maxMessage found s).2) := by
  simp only [Reassembler.feedTransfer, outcome, if_neg hfit, hp, if_pos hhdr]
  cases haccept : p.accept s with
  | none => rfl
  | some q =>
    cases hfinish : q.finish with
    | none => simp only [hfinish, Reassembler.put]
    | some payload => simp only [hfinish, Reassembler.put]

/-- Unless it is turned away, a segment is met by its key's entry alone and changes nothing else. -/
theorem feedSegment_eq {r : Reassembler} {s : TpSegment} (hroom : ¬ r.TurnsAway s) :
    r.feedSegment s =
      ((outcome r.maxMessage r.pending[s.key]? s).1,
        r.put s.key (outcome r.maxMessage r.pending[s.key]? s).2) := by
  unfold Reassembler.feedSegment
  split
  · next hbig => simp [outcome, hbig, Reassembler.put]
  · next hfit =>
    cases hfind : r.pending[s.key]? with
    | none =>
      have hsize : ¬ r.pending.size ≥ r.maxConcurrent :=
        fun hfull => hroom ⟨by omega, hfind, hfull⟩
      dsimp only
      rw [if_neg hsize]
      exact feedTransfer_eq r s hfit (sameHeader_refl _) rfl
    | some p =>
      dsimp only
      split
      · next hsame => exact feedTransfer_eq r s hfit hsame rfl
      · next hdiff => simp [outcome, hfit, hdiff, Reassembler.put]

/-- A turned away segment changes nothing. -/
theorem feedSegment_of_turnsAway {r : Reassembler} {s : TpSegment} (h : r.TurnsAway s) :
    r.feedSegment s = ({}, r) := by
  obtain ⟨hfit, hnone, hfull⟩ := h
  have hfit' : ¬ s.offset + s.data.length > r.maxMessage := by omega
  simp only [Reassembler.feedSegment, if_neg hfit', hnone, ge_iff_le, hfull, if_true]

theorem Reassembler.feed_params (r : Reassembler) (segment : Buffer) :
    (r.feed segment).2.maxMessage = r.maxMessage ∧
      (r.feed segment).2.maxConcurrent = r.maxConcurrent ∧
      (r.feed segment).2.timeout = r.timeout := by
  cases segment with
  | null len => exact ⟨rfl, rfl, rfl⟩
  | bytes bytes =>
    cases hdec : decodeSegment bytes with
    | none => simp [feed, hdec]
    | some s =>
      simp only [feed, hdec]
      have hstep := feedSegment_cases r s
      generalize r.feedSegment s = out at hstep
      cases hstep <;> exact ⟨rfl, rfl, rfl⟩

/-- **A segment never touches another transfer**, whatever becomes of it. -/
theorem getElem?_feed_of_ne (r : Reassembler) {segment : Buffer} {ids : UInt32 × UInt32}
    (hne : segment.ids? ≠ some ids) :
    (r.feed segment).2.pending[transferKey ids.1 ids.2]? =
      r.pending[transferKey ids.1 ids.2]? := by
  cases segment with
  | null len => rfl
  | bytes bytes =>
    cases hdec : decodeSegment bytes with
    | none => simp [Reassembler.feed, hdec]
    | some s =>
      have hkey : s.key ≠ transferKey ids.1 ids.2 := by
        intro heq
        rw [ids?_of_decodeSegment hdec, key_eq_iff.1 heq] at hne
        exact hne rfl
      simp only [Reassembler.feed, hdec]
      by_cases hroom : r.TurnsAway s
      · rw [feedSegment_of_turnsAway hroom]
      · rw [feedSegment_eq hroom, Reassembler.getElem?_put, if_neg hkey]

/-! ## The simulation -/

/-- `t` is `r` as it would be had only the transfer `key` ever been there. -/
structure Alone (key : Nat) (r t : Reassembler) : Prop where
  maxMessage : t.maxMessage = r.maxMessage
  maxConcurrent : t.maxConcurrent = r.maxConcurrent
  timeout : t.timeout = r.timeout
  entry : t.pending[key]? = r.pending[key]?
  others : ∀ k, k ≠ key → t.pending[k]? = none

namespace Alone

variable {key : Nat} {r t : Reassembler}

theorem refl_of_empty (h : ∀ k : Nat, r.pending[k]? = none) : Alone key r r :=
  ⟨rfl, rfl, rfl, rfl, fun k _ => h k⟩

/-- A reassembler with no transfer but `key` has none at all when `key` is absent. -/
theorem size_eq_zero (h : Alone key r t) (hnone : t.pending[key]? = none) : t.pending.size = 0 := by
  have hempty : t.pending.isEmpty = true := by
    rw [Std.TreeMap.isEmpty_iff_forall_not_mem]
    intro k hk
    rw [Std.TreeMap.mem_iff_isSome_getElem?] at hk
    by_cases hkey : k = key
    · rw [hkey, hnone] at hk
      cases hk
    · rw [h.others k hkey] at hk
      cases hk
  simpa [Std.TreeMap.isEmpty_eq_size_eq_zero] using hempty

/-- Alone, a segment is turned away only where it is in company. -/
theorem turnsAway {s : TpSegment} (h : Alone s.key r t) (ht : t.TurnsAway s) : r.TurnsAway s := by
  obtain ⟨hfit, hnone, hfull⟩ := ht
  have hsize := h.size_eq_zero hnone
  refine ⟨h.maxMessage ▸ hfit, h.entry ▸ hnone, ?_⟩
  have := h.maxConcurrent
  omega

/-- Writing the same entry under `key` on both sides. -/
theorem put (h : Alone key r t) (entry : Option Pending) :
    Alone key (r.put key entry) (t.put key entry) := by
  have hparams : ∀ q : Reassembler, (q.put key entry).maxMessage = q.maxMessage ∧
      (q.put key entry).maxConcurrent = q.maxConcurrent ∧
      (q.put key entry).timeout = q.timeout := by
    intro q
    cases entry <;> exact ⟨rfl, rfl, rfl⟩
  obtain ⟨hmr, hcr, htr⟩ := hparams r
  obtain ⟨hmt, hct, htt⟩ := hparams t
  refine ⟨?_, ?_, ?_, ?_, ?_⟩
  · rw [hmr, hmt, h.maxMessage]
  · rw [hcr, hct, h.maxConcurrent]
  · rw [htr, htt, h.timeout]
  · rw [Reassembler.getElem?_put, Reassembler.getElem?_put, if_pos rfl, if_pos rfl]
  · intro k hk
    rw [Reassembler.getElem?_put, if_neg (Ne.symm hk), h.others k hk]

/-- A segment of the key meets the same entry on both sides. -/
theorem feedSegment {s : TpSegment} (h : Alone s.key r t) (hroom : ¬ r.TurnsAway s) :
    (r.feedSegment s).1 = (t.feedSegment s).1 ∧
      Alone s.key (r.feedSegment s).2 (t.feedSegment s).2 := by
  have hroom' : ¬ t.TurnsAway s := fun ht => hroom (h.turnsAway ht)
  rw [feedSegment_eq hroom, feedSegment_eq hroom', h.maxMessage, h.entry]
  exact ⟨rfl, h.put _⟩

/-- `mainFunction` ages each transfer by itself. -/
theorem mainFunction (h : Alone key r t) (elapsed : Int) :
    Alone key (r.mainFunction elapsed).2 (t.mainFunction elapsed).2 := by
  refine ⟨h.maxMessage, h.maxConcurrent, h.timeout, ?_, ?_⟩
  · rw [Reassembler.getElem?_mainFunction, Reassembler.getElem?_mainFunction, h.entry, h.timeout]
  · intro k hk
    rw [Reassembler.getElem?_mainFunction, h.others k hk]
    rfl

end Alone

/-! ## Every interleaving -/

/-- A reassembler below its bound has room for any call. -/
theorem Reassembler.hasRoom_of_size_lt {r : Reassembler} (h : r.pending.size < r.maxConcurrent)
    (op : Op) : r.HasRoom op := by
  unfold HasRoom
  split
  · rintro s - ⟨-, -, hfull⟩
    omega
  · trivial

private theorem resultFor_concerns {ids : UInt32 × UInt32} {r t : Reassembler} {op : Op}
    (h : Alone (transferKey ids.1 ids.2) r t) (hroom : r.HasRoom op)
    (hop : op.concerns ids = true) :
    r.resultFor ids op = t.resultFor ids op ∧
      Alone (transferKey ids.1 ids.2) (r.step op) (t.step op) := by
  cases op with
  | mainFunction elapsed => exact ⟨rfl, h.mainFunction elapsed⟩
  | feed segment =>
    have hids : segment.ids? = some ids := by simpa [Op.concerns] using hop
    cases segment with
    | null len => cases hids
    | bytes bytes =>
      simp only [Reassembler.resultFor, if_pos hids, Reassembler.step, Reassembler.feed]
      cases hdec : decodeSegment bytes with
      | none => exact ⟨rfl, h⟩
      | some s =>
        have hkey : s.key = transferKey ids.1 ids.2 := by
          apply key_eq_iff.2
          apply Option.some.inj
          rw [← ids?_of_decodeSegment hdec, hids]
        rw [← hkey] at h ⊢
        obtain ⟨hres, halone⟩ := h.feedSegment (hroom s hdec)
        exact ⟨by rw [hres], halone⟩

private theorem resultFor_other {ids : UInt32 × UInt32} {r t : Reassembler} {op : Op}
    (h : Alone (transferKey ids.1 ids.2) r t) (hop : op.concerns ids = false) :
    r.resultFor ids op = [] ∧ Alone (transferKey ids.1 ids.2) (r.step op) t := by
  cases op with
  | mainFunction elapsed => cases hop
  | feed segment =>
    have hids : segment.ids? ≠ some ids := by simpa [Op.concerns] using hop
    refine ⟨if_neg hids, ?_⟩
    have hentry := getElem?_feed_of_ne r hids
    obtain ⟨hm, hc, ht⟩ := r.feed_params segment
    exact ⟨h.maxMessage.trans hm.symm, h.maxConcurrent.trans hc.symm, h.timeout.trans ht.symm,
      h.entry.trans hentry.symm, h.others⟩

/-- **Transfers are isolated.** In every run whose segments all find room, the results for one key's
segments are those of a fresh reassembler that is fed only them, with the same `mainFunction` calls
in between; and in the state a run reaches, a segment of other ids, refused or not, leaves the key's
transfer as it is. -/
theorem transfers_isolated (maxMessage maxConcurrent : Nat) (timeout : Int) (ops : List Op)
    (ids : UInt32 × UInt32) :
    let r₀ := Reassembler.fresh maxMessage maxConcurrent timeout
    let key := transferKey ids.1 ids.2
    NeverFull r₀ ops →
      r₀.resultsFor ids ops = r₀.resultsFor ids (ops.filter (Op.concerns ids)) ∧
      ∀ segment : Buffer, segment.ids? ≠ some ids →
        ((r₀.run ops).feed segment).2.pending[key]? = (r₀.run ops).pending[key]? := by
  intro r₀ key hroom
  refine ⟨?_, fun segment hne => getElem?_feed_of_ne _ hne⟩
  have halone : Alone key r₀ r₀ := Alone.refl_of_empty fun k => by simp [r₀, Reassembler.fresh]
  refine observe_filter ?_ ?_ halone hroom
  · intro r t op h hok hop
    exact resultFor_concerns h hok hop
  · intro r t op h _ hop
    exact resultFor_other h hop

/-- The two halves of one message with a frame of another transfer between them that promises more
and carries nothing. -/
theorem transfers_isolated_two_halves :
    let hdr : MessageHeader := ⟨0x12345678, 0x00010002, 1, 1, 0, 0⟩
    let other : MessageHeader := ⟨0x12345678, 0x00010003, 1, 1, 0, 0⟩
    let first := Op.feed (.bytes (segmentFrame hdr 0 0 true (List.replicate 16 0xAB)))
    let last := Op.feed (.bytes (segmentFrame hdr 0 16 false [0xCD]))
    let ops := [Op.feed (.bytes (segmentFrame other 0 0 true (List.replicate 16 0x11))), first,
      Op.feed (.bytes (segmentFrame other 0 16 true [])), .mainFunction 10, last]
    let ids : UInt32 × UInt32 := (0x12345678, 0x00010002)
    let r₀ := Reassembler.fresh 64 3 1000
    NeverFull r₀ ops ∧
      r₀.resultsFor ids ops = [{ status := .kInProgress },
        ⟨.kComplete, hdr, List.replicate 16 0xAB ++ [0xCD]⟩] ∧
      (ops.filter (Op.concerns ids)).length = 3 ∧
      r₀.resultsFor ids ops = r₀.resultsFor ids (ops.filter (Op.concerns ids)) := by
  intro hdr other first last ops ids r₀
  have hroom : NeverFull r₀ ops := by
    have hlt : ∀ n ≤ 4, (r₀.run (ops.take n)).pending.size < 3 := by decide +kernel
    have hmax : ∀ n ≤ 4, (r₀.run (ops.take n)).maxConcurrent = 3 := by decide +kernel
    have hop : ∀ n ≤ 4, ∀ op, (r₀.run (ops.take n)).HasRoom op := by
      intro n hn op
      exact Reassembler.hasRoom_of_size_lt ((hmax n hn).symm ▸ hlt n hn) op
    refine .cons (hop 0 (by decide) _) (.cons (hop 1 (by decide) _) (.cons (hop 2 (by decide) _)
      (.cons (hop 3 (by decide) _) (.cons (hop 4 (by decide) _) along_nil))))
  refine ⟨hroom, by decide +kernel, by decide +kernel, ?_⟩
  exact (transfers_isolated 64 3 1000 ops ids hroom).1

end Tc8Harness.SomeipTp
