import Tc8Harness.Autosar.Com

/-!
# The COM round trips

The two loops over a signal's bits are specified against the positions of its bits, so that an accepted
PDU with disjoint signals is a `Layout` and `packPdu` and `unpackInto` are its `pack` and `unpack`.
`Built` is what the constructor leaves behind, and `Holding` what any sequence of calls does to it.
-/

namespace Tc8Harness.Autosar

open BitFields Loops

/-! ## The loops over a signal's bits -/

theorem shiftAmount {k : Nat} (hk : k < 64) : (UInt64.ofNat k).toNat % 64 = k := by
  rw [UInt64.toNat_ofNat']
  omega

theorem shiftRight_and_one {k : Nat} (hk : k < 64) (value : UInt64) :
    ((value >>> UInt64.ofNat k) &&& 1 != 0) = value.toNat.testBit k := by
  rw [Bool.eq_iff_iff, bne_iff_ne, ne_eq, ← UInt64.toNat_inj, UInt64.toNat_and,
    UInt64.toNat_shiftRight, shiftAmount hk, Nat.testBit, bne_iff_ne, Nat.and_comm]
  rfl

theorem one_shiftLeft_toNat {k : Nat} (hk : k < 64) :
    ((1 : UInt64) <<< UInt64.ofNat k).toNat = 2 ^ k := by
  have hlt : 2 ^ k < 2 ^ 64 := Nat.pow_lt_pow_right (by omega) hk
  rw [UInt64.toNat_shiftLeft, shiftAmount hk]
  change 1 <<< k % 2 ^ 64 = _
  rw [Nat.one_shiftLeft, Nat.mod_eq_of_lt hlt]

theorem and_maskFor_toNat (value : UInt64) (bitSize : Nat) (hsize : bitSize ≤ 64) :
    (value &&& maskFor bitSize).toNat = value.toNat % 2 ^ bitSize := by
  rw [maskFor]
  split
  · next hwide =>
    have heq : bitSize = 64 := by omega
    rw [UInt64.toNat_and, heq]
    change value.toNat &&& (2 ^ 64 - 1) = _
    rw [Nat.and_two_pow_sub_one_eq_mod]
  · next hnarrow =>
    have hone := one_shiftLeft_toNat (k := bitSize) (by omega)
    have hle : (1 : UInt64) ≤ 1 <<< UInt64.ofNat bitSize := by
      rw [UInt64.le_iff_toNat_le, hone]
      exact Nat.one_le_two_pow
    rw [UInt64.toNat_and, UInt64.toNat_sub_of_le _ _ hle, hone]
    change value.toNat &&& (2 ^ bitSize - 1) = _
    rw [Nat.and_two_pow_sub_one_eq_mod]

/-- What the constructor asks of a signal in a PDU of `length` bytes. -/
structure SignalDef.FitsIn (sig : SignalDef) (length : Nat) : Prop where
  size : sig.bitSize ≤ 64
  inside : ∀ k < sig.bitSize, bitPos sig k / 8 < length

/-- Packing a signal adds the positions of its value's ones. -/
theorem packSignal_spec {sig : SignalDef} {buf : List UInt8} (hfits : sig.FitsIn buf.length)
    (value : UInt64) :
    (packSignal value buf sig).length = buf.length ∧
      ones (packSignal value buf sig) =
        ones buf ∪ {p | ∃ k < sig.bitSize, value.toNat.testBit k = true ∧ bitPos sig k = p} := by
  refine foldl_range_invariant (fun n b => b.length = buf.length ∧
    ones b = ones buf ∪ {p | ∃ k < n, value.toNat.testBit k = true ∧ bitPos sig k = p})
    ⟨rfl, by simp⟩ ?_
  rintro n b hn ⟨hlength, hones⟩
  rw [shiftRight_and_one (lt_of_lt_of_le hn hfits.size)]
  cases hbit : value.toNat.testBit n with
  | false =>
    refine ⟨hlength, ?_⟩
    rw [if_neg (by decide), hones]
    ext p
    simp only [Set.mem_union, Set.mem_ofPred_eq, Nat.lt_succ_iff_lt_or_eq]
    grind
  | true =>
    have hinside := hfits.inside n hn
    rw [← hlength] at hinside
    rw [if_pos rfl, signalBit_eq, length_orBit, ones_orBit hinside, hones]
    refine ⟨hlength, ?_⟩
    ext p
    simp only [Set.mem_union, Set.mem_insert_iff, Set.mem_ofPred_eq, Nat.lt_succ_iff_lt_or_eq]
    grind

theorem testBit_unpackSignal {sig : SignalDef} (hsize : sig.bitSize ≤ 64) (buf : List UInt8)
    (j : Nat) :
    (unpackSignal buf sig).toNat.testBit j = true ↔ j < sig.bitSize ∧ bitPos sig j ∈ ones buf := by
  revert j
  refine foldl_range_invariant (fun n (value : UInt64) => ∀ j,
    value.toNat.testBit j = true ↔ j < n ∧ bitPos sig j ∈ ones buf) (by simp) ?_
  intro n value hn hvalue j
  have hmem : bitAt buf (signalBit sig n) = true ↔ bitPos sig n ∈ ones buf := by
    rw [signalBit_eq]
    rfl
  split
  · next hbit =>
    rw [UInt64.toNat_or, Nat.testBit_or, one_shiftLeft_toNat (by omega), Nat.testBit_two_pow,
      Bool.or_eq_true, decide_eq_true_iff, hvalue]
    rw [hmem] at hbit
    grind
  · next hbit =>
    rw [hvalue]
    rw [hmem] at hbit
    grind

theorem byte_le_maxByte {sig : SignalDef} {k : Nat} (hk : k < sig.bitSize) :
    (signalBit sig k).byte ≤ maxByte sig := by
  have hall : ∀ k < sig.bitSize, (signalBit sig k).byte ≤ maxByte sig := by
    refine foldl_range_invariant (fun n hi => ∀ k < n, (signalBit sig k).byte ≤ hi) (by simp) ?_
    intro n hi hn hle k hk
    rcases Nat.lt_succ_iff_lt_or_eq.1 hk with hlt | rfl
    · exact le_trans (hle k hlt) (Nat.le_max_left _ _)
    · exact Nat.le_max_right _ _
  exact hall k hk

/-! ## A PDU as a layout -/

/-- No two signals share a bit. -/
def PduDef.Disjoint (pdu : PduDef) : Prop :=
  pdu.signals.Pairwise fun a b =>
    ∀ k < a.bitSize, ∀ l < b.bitSize, signalBit a k ≠ signalBit b l

instance (pdu : PduDef) : Decidable pdu.Disjoint :=
  inferInstanceAs (Decidable (pdu.signals.Pairwise fun a b =>
    ∀ k < a.bitSize, ∀ l < b.bitSize, signalBit a k ≠ signalBit b l))

/-- What the round trips need of a PDU. -/
structure PduDef.WellPlaced (pdu : PduDef) : Prop where
  fits : ∀ sig ∈ pdu.signals, sig.FitsIn pdu.length
  disjoint : pdu.Disjoint

theorem PduDef.WellPlaced.eq_of_bitPos_eq {pdu : PduDef} (h : pdu.WellPlaced) {a b : SignalDef}
    (ha : a ∈ pdu.signals) (hb : b ∈ pdu.signals) {k l : Nat} (hk : k < a.bitSize)
    (hl : l < b.bitSize) (heq : bitPos a k = bitPos b l) : a = b := by
  by_contra hne
  have : Std.Symm fun a b : SignalDef =>
      ∀ k < a.bitSize, ∀ l < b.bitSize, signalBit a k ≠ signalBit b l :=
    ⟨fun _ _ hab k hk l hl => (hab l hl k hk).symm⟩
  apply h.disjoint.forall ha hb hne k hk l hl
  rw [signalBit_eq, signalBit_eq, heq]

/-- The signals of the PDU are the fields, the positions in its buffer the places. -/
def PduDef.WellPlaced.layout {pdu : PduDef} (h : pdu.WellPlaced) :
    Layout {sig // sig ∈ pdu.signals} Nat where
  width sig := sig.1.bitSize
  place sig k := bitPos sig.1 k
  place_inj {a b k l} hk hl heq := by
    obtain rfl : a = b := Subtype.ext (h.eq_of_bitPos_eq a.2 b.2 hk hl heq)
    exact ⟨rfl, bitPos_inj (h.fits a.1 a.2).size hk hl heq⟩

/-- The loop of `packPdu` over the signals. -/
theorem foldl_packSignal {value : SignalDef → UInt64} {sigs : List SignalDef} {buf : List UInt8}
    (hfits : ∀ sig ∈ sigs, sig.FitsIn buf.length) :
    (sigs.foldl (fun buf sig => packSignal (value sig) buf sig) buf).length = buf.length ∧
      ones (sigs.foldl (fun buf sig => packSignal (value sig) buf sig) buf) =
        ones buf ∪ {p | ∃ sig ∈ sigs, ∃ k < sig.bitSize,
          (value sig).toNat.testBit k = true ∧ bitPos sig k = p} := by
  induction sigs generalizing buf with
  | nil => exact ⟨rfl, by simp⟩
  | cons sig sigs ih =>
    obtain ⟨hlength, hones⟩ := packSignal_spec (hfits sig List.mem_cons_self) (value sig)
    have hrest : ∀ sig' ∈ sigs, sig'.FitsIn (packSignal (value sig) buf sig).length := by
      intro sig' hmem
      rw [hlength]
      exact hfits sig' (List.mem_cons_of_mem _ hmem)
    obtain ⟨hlength', hones'⟩ := ih hrest
    rw [List.foldl_cons, hlength', hlength, hones', hones]
    refine ⟨rfl, ?_⟩
    ext p
    simp only [Set.mem_union, Set.mem_ofPred_eq, List.mem_cons, or_assoc, exists_eq_or_imp]

/-- The buffer that carries the given values. -/
def PduDef.pack (pdu : PduDef) (value : SignalDef → UInt64) : List UInt8 :=
  pdu.signals.foldl (fun buf sig => packSignal (value sig) buf sig) (List.replicate pdu.length 0x00)

/-- Outside the signals the buffer is zero. -/
def PduDef.ZeroOutside (pdu : PduDef) (buf : List UInt8) : Prop :=
  ∀ p < 8 * pdu.length, (∀ sig ∈ pdu.signals, ∀ k < sig.bitSize, signalBit sig k ≠ littleBit p) →
    bitAt buf (littleBit p) = false

instance (pdu : PduDef) (buf : List UInt8) : Decidable (pdu.ZeroOutside buf) :=
  inferInstanceAs (Decidable (∀ p < 8 * pdu.length,
    (∀ sig ∈ pdu.signals, ∀ k < sig.bitSize, signalBit sig k ≠ littleBit p) →
      bitAt buf (littleBit p) = false))

section WellPlaced

variable {pdu : PduDef} (h : pdu.WellPlaced) (value : SignalDef → UInt64)

include h

theorem PduDef.WellPlaced.fits_zeroed :
    ∀ sig ∈ pdu.signals, sig.FitsIn (List.replicate pdu.length (0x00 : UInt8)).length := by
  rw [List.length_replicate]
  exact h.fits

theorem PduDef.WellPlaced.length_pack : (pdu.pack value).length = pdu.length := by
  rw [PduDef.pack, (foldl_packSignal h.fits_zeroed).1, List.length_replicate]

theorem PduDef.WellPlaced.ones_pack :
    ones (pdu.pack value) = h.layout.pack fun sig => (value sig.1).toNat := by
  rw [PduDef.pack, (foldl_packSignal h.fits_zeroed).2, ones_replicate_zero, Set.empty_union]
  ext p
  constructor
  · rintro ⟨sig, hsig, k, hk, hbit, hplace⟩
    exact ⟨⟨sig, hsig⟩, k, hk, hbit, hplace⟩
  · rintro ⟨⟨sig, hsig⟩, k, hk, hbit, hplace⟩
    exact ⟨sig, hsig, k, hk, hbit, hplace⟩

theorem PduDef.WellPlaced.unpackSignal_toNat (buf : List UInt8) (sig : {sig // sig ∈ pdu.signals}) :
    (unpackSignal buf sig.1).toNat = h.layout.unpack (ones buf) sig := by
  apply Nat.eq_of_testBit_eq
  intro k
  rw [Bool.eq_iff_iff, Layout.testBit_unpack, testBit_unpackSignal (h.fits sig.1 sig.2).size]
  rfl

theorem PduDef.WellPlaced.unpackSignal_pack {sig : SignalDef} (hsig : sig ∈ pdu.signals) :
    (unpackSignal (pdu.pack value) sig).toNat = (value sig).toNat % 2 ^ sig.bitSize := by
  rw [h.unpackSignal_toNat _ ⟨sig, hsig⟩, h.ones_pack, Layout.unpack_pack]
  rfl

theorem PduDef.WellPlaced.pack_unpackSignal {buf : List UInt8} (hlength : buf.length = pdu.length)
    (hzero : pdu.ZeroOutside buf) (hvalue : ∀ sig ∈ pdu.signals, value sig = unpackSignal buf sig) :
    pdu.pack value = buf := by
  have hsupport : ones buf ⊆ h.layout.support := by
    intro p hp
    by_contra hout
    have hlt : p < 8 * pdu.length := by
      by_contra hge
      rw [mem_ones, List.getD_eq_default _ _ (by omega)] at hp
      simp at hp
    have hclear := hzero p hlt fun sig hsig k hk heq => hout
      ⟨⟨sig, hsig⟩, k, hk, littleBit_injective (by rw [← heq, signalBit_eq]; rfl)⟩
    rw [ones, Set.mem_ofPred_eq, hclear] at hp
    exact Bool.noConfusion hp
  have hvalues : (fun sig : {sig // sig ∈ pdu.signals} => (value sig.1).toNat) =
      h.layout.unpack (ones buf) := by
    funext sig
    rw [hvalue sig.1 sig.2, h.unpackSignal_toNat]
  apply eq_of_ones_eq
  · rw [h.length_pack, hlength]
  · rw [h.ones_pack, hvalues, Layout.pack_unpack hsupport]

end WellPlaced

/-! ## What the constructor accepts -/

namespace SignalEngine

/-- The engine the constructor makes of `db`. -/
structure Built (db : List PduDef) (e : SignalEngine) : Prop where
  stored : ∀ pdu ∈ db, e.pdus pdu.id = some pdu
  fits : ∀ pdu ∈ db, ∀ sig ∈ pdu.signals, sig.FitsIn pdu.length
  indexed : ∀ pdu ∈ db, ∀ i sig, pdu.signals[i]? = some sig → e.sigIndex sig.id = some (pdu.id, i)
  unset : ∀ id, e.txValues id = none

theorem fitsIn_of_maxByte_lt {sig : SignalDef} {length : Nat} (hsize : sig.bitSize ≤ 64)
    (hbyte : maxByte sig < length) : sig.FitsIn length := by
  refine ⟨hsize, fun k hk => ?_⟩
  have hle := byte_le_maxByte hk
  rw [signalBit_eq] at hle
  exact lt_of_le_of_lt hle hbyte

theorem addSignal_ok {pdu : PduDef} {e e' : SignalEngine} {sig : SignalDef × Nat}
    (h : addSignal pdu e sig = .ok e') :
    sig.1.FitsIn pdu.length ∧ e.sigIndex sig.1.id = none ∧
      e' = { e with sigIndex := Function.update e.sigIndex sig.1.id (some (pdu.id, sig.2)) } := by
  unfold addSignal at h
  split at h
  · nomatch h
  · next hsize =>
    split at h
    · nomatch h
    · next hbyte =>
      split at h
      · nomatch h
      · next hnew =>
        exact ⟨fitsIn_of_maxByte_lt (by omega) (by omega), Option.not_isSome_iff_eq_none.1 hnew,
          (Except.ok.inj h).symm⟩

/-- What the constructor's loop over the signals of a PDU leaves alone and what it adds. -/
structure Indexes (pdu : PduDef) (e : SignalEngine) (sigs : List (SignalDef × Nat))
    (e' : SignalEngine) : Prop where
  pdus : e'.pdus = e.pdus
  txValues : e'.txValues = e.txValues
  kept : ∀ id ref, e.sigIndex id = some ref → e'.sigIndex id = some ref
  fits : ∀ sig ∈ sigs, sig.1.FitsIn pdu.length
  added : ∀ sig ∈ sigs, e'.sigIndex sig.1.id = some (pdu.id, sig.2)

theorem Indexes.addSignal {pdu : PduDef} {e e₁ e₂ : SignalEngine} {sigs : List (SignalDef × Nat)}
    {sig : SignalDef × Nat} (h : Indexes pdu e sigs e₁) (hsig : addSignal pdu e₁ sig = .ok e₂) :
    Indexes pdu e (sigs ++ [sig]) e₂ := by
  obtain ⟨hfits, hnew, rfl⟩ := addSignal_ok hsig
  -- The new entry hides none of the old ones.
  have hkept : ∀ id ref, e₁.sigIndex id = some ref →
      Function.update e₁.sigIndex sig.1.id (some (pdu.id, sig.2)) id = some ref := by
    intro id ref hid
    have hne : id ≠ sig.1.id := by
      rintro rfl
      rw [hnew] at hid
      nomatch hid
    rw [Function.update_of_ne hne]
    exact hid
  refine ⟨h.pdus, h.txValues, fun id ref hid => hkept id ref (h.kept id ref hid), ?_, ?_⟩
  · exact List.forall_mem_append.2 ⟨h.fits, List.forall_mem_singleton.2 hfits⟩
  · refine List.forall_mem_append.2 ⟨fun old hold => ?_, List.forall_mem_singleton.2 ?_⟩
    · exact hkept _ _ (h.added old hold)
    · exact Function.update_self ..

theorem Built.addPdu {db : List PduDef} {e e' : SignalEngine} {pdu : PduDef} (hbuilt : Built db e)
    (h : e.addPdu pdu = .ok e') : Built (db ++ [pdu]) e' := by
  unfold SignalEngine.addPdu at h
  split at h
  · nomatch h
  · next hnew =>
    rw [Option.not_isSome_iff_eq_none] at hnew
    cases hsigs : pdu.signals.zipIdx.foldlM (SignalEngine.addSignal pdu) e with
    | error message =>
      rw [hsigs] at h
      nomatch h
    | ok e₁ =>
      rw [hsigs] at h
      obtain rfl := Except.ok.inj h
      have hindexes : Indexes pdu e pdu.signals.zipIdx e₁ :=
        foldlM_ok_invariant (Indexes pdu e) (fun _ _ _ _ => Indexes.addSignal)
          ⟨rfl, rfl, fun _ _ h => h, by simp, by simp⟩ hsigs
      refine ⟨?_, ?_, ?_, ?_⟩
      · refine List.forall_mem_append.2 ⟨fun old hold => ?_, List.forall_mem_singleton.2 ?_⟩
        · have hstored := hbuilt.stored old hold
          have hne : old.id ≠ pdu.id := by
            intro heq
            rw [heq, hnew] at hstored
            nomatch hstored
          change Function.update e₁.pdus pdu.id (some pdu) old.id = _
          rw [Function.update_of_ne hne, hindexes.pdus]
          exact hstored
        · exact Function.update_self ..
      · refine List.forall_mem_append.2 ⟨hbuilt.fits, List.forall_mem_singleton.2 fun sig hsig => ?_⟩
        obtain ⟨i, hi⟩ := List.mem_iff_getElem?.1 hsig
        exact hindexes.fits (sig, i) (List.mem_zipIdx_iff_getElem?.2 hi)
      · refine List.forall_mem_append.2 ⟨fun old hold i sig hi => ?_,
          List.forall_mem_singleton.2 fun i sig hi => ?_⟩
        · exact hindexes.kept _ _ (hbuilt.indexed old hold i sig hi)
        · exact hindexes.added (sig, i) (List.mem_zipIdx_iff_getElem?.2 hi)
      · intro id
        change e₁.txValues id = none
        rw [hindexes.txValues]
        exact hbuilt.unset id

theorem make_built {db : List PduDef} {e : SignalEngine} (h : make db = .ok e) : Built db e :=
  foldlM_ok_invariant Built (fun _ _ _ _ => Built.addPdu)
    ⟨by simp, by simp, by simp, fun _ => rfl⟩ h

section Built

variable {db : List PduDef} {e : SignalEngine} {pdu : PduDef} (h : Built db e) (hpdu : pdu ∈ db)

include h hpdu

theorem Built.known {sig : SignalDef} (hsig : sig ∈ pdu.signals) :
    ∃ i, pdu.signals[i]? = some sig ∧ e.sigIndex sig.id = some (pdu.id, i) := by
  obtain ⟨i, hi⟩ := List.mem_iff_getElem?.1 hsig
  exact ⟨i, hi, h.indexed pdu hpdu i sig hi⟩

/-- A signal id names one signal of the PDU. -/
theorem Built.eq_of_id_eq {a b : SignalDef} (ha : a ∈ pdu.signals) (hb : b ∈ pdu.signals)
    (heq : a.id = b.id) : a = b := by
  obtain ⟨i, hi, hindex⟩ := h.known hpdu ha
  obtain ⟨j, hj, hindex'⟩ := h.known hpdu hb
  rw [heq, hindex'] at hindex
  obtain ⟨-, rfl⟩ := Prod.mk.inj (Option.some.inj hindex)
  exact Option.some.inj (hi.symm.trans hj)

/-- The accessors answer from the database. -/
theorem Built.accessors :
    e.pduLength pdu.id = pdu.length ∧ e.pduSignals pdu.id = pdu.signals.map SignalDef.id ∧
      ∀ sig ∈ pdu.signals,
        e.hasSignal sig.id = true ∧ e.signalWidth sig.id = (sig.bitSize + 7) / 8 := by
  have hstored := h.stored pdu hpdu
  refine ⟨by rw [pduLength, hstored], by rw [pduSignals, hstored], ?_⟩
  intro sig hsig
  obtain ⟨i, hi, hindex⟩ := h.known hpdu hsig
  refine ⟨by rw [hasSignal, hindex]; rfl, ?_⟩
  rw [signalWidth, hindex]
  simp only [hstored, Option.bind_some, hi]

end Built

/-! ## Runs -/

/-- The calls that change an engine. -/
inductive Call where
  | setSignal (sigId : UInt32) (value : UInt64)
  | unpackInto (pduId : UInt32) (buf : List UInt8)

def step (e : SignalEngine) (call : Call) : SignalEngine :=
  let result :=
    match call with
    | .setSignal sigId value => e.setSignal sigId value
    | .unpackInto pduId buf => e.unpackInto pduId buf
  match result with
  | .ok e' => e'
  | .error _ => e

def run (e : SignalEngine) (calls : List Call) : SignalEngine := calls.foldl step e

/-- The value set for a signal after one more call. -/
def Call.setFor (sigId : UInt32) (last : UInt64) : Call → UInt64
  | .setSignal sigId' value => if sigId' = sigId then value else last
  | .unpackInto _ _ => last

/-- The last value set for a signal, or 0. -/
def lastSet (sigId : UInt32) (calls : List Call) : UInt64 := calls.foldl (Call.setFor sigId) 0

/-- The database is as it was made, and the known signals have been set as `last` says. -/
structure Holding (e₀ : SignalEngine) (last : UInt32 → UInt64) (e : SignalEngine) : Prop where
  pdus : e.pdus = e₀.pdus
  sigIndex : e.sigIndex = e₀.sigIndex
  value : ∀ id, (e₀.sigIndex id).isSome → (e.txValues id).getD 0 = last id

theorem Holding.step {e₀ e : SignalEngine} {last : UInt32 → UInt64} (h : Holding e₀ last e)
    (call : Call) : Holding e₀ (fun id => call.setFor id (last id)) (e.step call) := by
  cases call with
  | setSignal sigId value =>
    simp only [SignalEngine.step, setSignal, h.sigIndex]
    cases hindex : e₀.sigIndex sigId with
    | none =>
      refine ⟨h.pdus, h.sigIndex, fun id hid => ?_⟩
      have hne : sigId ≠ id := by
        rintro rfl
        rw [hindex] at hid
        nomatch hid
      rw [h.value id hid, Call.setFor, if_neg hne]
    | some ref =>
      refine ⟨h.pdus, rfl, fun id hid => ?_⟩
      by_cases hid' : sigId = id
      · subst hid'
        simp only [Function.update_self, Option.getD_some, Call.setFor, if_true]
      · simp only [Function.update_of_ne (Ne.symm hid'), Call.setFor, if_neg hid']
        exact h.value id hid
  | unpackInto pduId buf =>
    simp only [SignalEngine.step, unpackInto]
    cases e.pdus pduId with
    | none => exact h
    | some pdu =>
      by_cases hshort : buf.length < pdu.length
      · simp only [if_pos hshort]
        exact h
      · simp only [if_neg hshort]
        exact ⟨h.pdus, h.sigIndex, h.value⟩

theorem Holding.run {e₀ e : SignalEngine} {last : UInt32 → UInt64} (h : Holding e₀ last e)
    (calls : List Call) :
    Holding e₀ (fun id => calls.foldl (Call.setFor id) (last id)) (e.run calls) := by
  induction calls generalizing e last with
  | nil => exact h
  | cons call calls ih => exact ih (h.step call)

theorem Built.holding {db : List PduDef} {e₀ : SignalEngine} (h : Built db e₀) (calls : List Call) :
    Holding e₀ (fun id => lastSet id calls) (e₀.run calls) := by
  have hstart : Holding e₀ (fun _ => 0) e₀ := ⟨rfl, rfl, fun id _ => by rw [h.unset]; rfl⟩
  exact hstart.run calls

/-- In every state of a run the accessors answer from the database. -/
theorem Built.accessors_run {db : List PduDef} {e₀ : SignalEngine} {pdu : PduDef} (h : Built db e₀)
    (hpdu : pdu ∈ db) (calls : List Call) :
    (e₀.run calls).pduLength pdu.id = pdu.length ∧
      (e₀.run calls).pduSignals pdu.id = pdu.signals.map SignalDef.id ∧
      ∀ sig ∈ pdu.signals, (e₀.run calls).hasSignal sig.id = true ∧
        (e₀.run calls).signalWidth sig.id = (sig.bitSize + 7) / 8 := by
  have hholding := h.holding calls
  have haccessors := h.accessors hpdu
  simp only [pduLength, pduSignals, hasSignal, signalWidth] at haccessors ⊢
  rw [hholding.pdus, hholding.sigIndex]
  exact haccessors

/-! ## The round trips -/

theorem packPdu_of_stored {e : SignalEngine} {pdu : PduDef} (h : e.pdus pdu.id = some pdu) :
    e.packPdu pdu.id = .ok (pdu.pack e.txValue) := by
  rw [packPdu, h]
  rfl

/-- The loop of `unpackInto` over the signals leaves each one's value under its id. -/
theorem foldl_received {buf : List UInt8} {sig : SignalDef} {sigs : List SignalDef}
    {rx : UInt32 → Option UInt64} (hid : ∀ other ∈ sigs, other.id = sig.id → other = sig)
    (h : sig ∈ sigs ∨ rx sig.id = some (unpackSignal buf sig)) :
    (sigs.foldl (fun (rx : UInt32 → Option UInt64) sig =>
      Function.update rx sig.id (some (unpackSignal buf sig))) rx) sig.id =
        some (unpackSignal buf sig) := by
  induction sigs generalizing rx with
  | nil => exact h.resolve_left List.not_mem_nil
  | cons first sigs ih =>
    apply ih (fun other hother => hid other (List.mem_cons_of_mem _ hother))
    beta_reduce
    by_cases hfirst : sig.id = first.id
    · right
      rw [hid first List.mem_cons_self hfirst.symm, Function.update_self]
    · rw [Function.update_of_ne hfirst]
      refine h.imp_left fun hmem => ?_
      refine (List.mem_cons.1 hmem).resolve_left ?_
      rintro rfl
      exact hfirst rfl

theorem unpackInto_of_stored {e : SignalEngine} {pdu : PduDef} {buf : List UInt8}
    (h : e.pdus pdu.id = some pdu) (hlength : buf.length = pdu.length)
    (hid : ∀ a ∈ pdu.signals, ∀ b ∈ pdu.signals, a.id = b.id → a = b) :
    ∃ e', e.unpackInto pdu.id buf = .ok e' ∧ e'.pdus = e.pdus ∧ e'.sigIndex = e.sigIndex ∧
      ∀ sig ∈ pdu.signals, e'.lastReceived sig.id = some (unpackSignal buf sig) := by
  have hlong : ¬ buf.length < pdu.length := by omega
  rw [unpackInto, h]
  simp only [if_neg hlong]
  refine ⟨_, rfl, rfl, rfl, fun sig hsig => ?_⟩
  exact foldl_received (fun other hother => hid other hother sig hsig) (.inl hsig)

/-- Setting a signal to the value last received for it. -/
def setToReceived (e : SignalEngine) (sig : SignalDef) : Except String SignalEngine :=
  match e.lastReceived sig.id with
  | none => .ok e
  | some value => e.setSignal sig.id value

theorem foldlM_setToReceived {order : List SignalDef} {e : SignalEngine}
    (hknown : ∀ sig ∈ order, (e.sigIndex sig.id).isSome)
    (hreceived : ∀ sig ∈ order, (e.lastReceived sig.id).isSome) :
    ∃ e', order.foldlM setToReceived e = .ok e' ∧ e'.pdus = e.pdus ∧
      (∀ sig ∈ order, e'.txValues sig.id = e.lastReceived sig.id) ∧
      ∀ id, e.txValues id = e.lastReceived id → e'.txValues id = e.lastReceived id := by
  induction order generalizing e with
  | nil => exact ⟨e, rfl, rfl, by simp, fun _ h => h⟩
  | cons sig order ih =>
    obtain ⟨ref, href⟩ := Option.isSome_iff_exists.1 (hknown sig List.mem_cons_self)
    obtain ⟨value, hvalue⟩ := Option.isSome_iff_exists.1 (hreceived sig List.mem_cons_self)
    have hset : e.setToReceived sig =
        .ok { e with txValues := Function.update e.txValues sig.id (some value) } := by
      rw [setToReceived, hvalue]
      simp only [setSignal, href]
    obtain ⟨e', hrun, hpdus, hall, hkeep⟩ :=
      ih (e := { e with txValues := Function.update e.txValues sig.id (some value) })
        (fun other hother => hknown other (List.mem_cons_of_mem _ hother))
        (fun other hother => hreceived other (List.mem_cons_of_mem _ hother))
    refine ⟨e', ?_, hpdus, List.forall_mem_cons.2 ⟨?_, hall⟩, fun id hid => hkeep id ?_⟩
    · rw [List.foldlM_cons, hset]
      exact hrun
    · apply hkeep sig.id
      exact (Function.update_self ..).trans hvalue.symm
    · by_cases heq : id = sig.id
      · subst heq
        exact (Function.update_self ..).trans hvalue.symm
      · exact (Function.update_of_ne heq ..).trans hid

section RoundTrip

variable {db : List PduDef} {e₀ : SignalEngine} {pdu : PduDef} (h : Built db e₀) (hpdu : pdu ∈ db)
  (calls : List Call)

include h hpdu

theorem Built.stored_run : (e₀.run calls).pdus pdu.id = some pdu := by
  rw [(h.holding calls).pdus]
  exact h.stored pdu hpdu

theorem Built.known_run {sig : SignalDef} (hsig : sig ∈ pdu.signals) :
    ((e₀.run calls).sigIndex sig.id).isSome := by
  obtain ⟨i, -, hi⟩ := h.known hpdu hsig
  rw [(h.holding calls).sigIndex, hi]
  rfl

theorem Built.unpackInto_run {buf : List UInt8} (hlength : buf.length = pdu.length) :
    ∃ e', (e₀.run calls).unpackInto pdu.id buf = .ok e' ∧ e'.pdus = (e₀.run calls).pdus ∧
      e'.sigIndex = (e₀.run calls).sigIndex ∧
      ∀ sig ∈ pdu.signals, e'.lastReceived sig.id = some (unpackSignal buf sig) :=
  unpackInto_of_stored (h.stored_run hpdu calls) hlength
    fun _ ha _ hb => h.eq_of_id_eq hpdu ha hb

/-- The value packed for a signal. -/
theorem Built.txValue_run {sig : SignalDef} (hsig : sig ∈ pdu.signals) :
    ((e₀.run calls).txValue sig).toNat = (lastSet sig.id calls).toNat % 2 ^ sig.bitSize := by
  obtain ⟨i, -, hi⟩ := h.known hpdu hsig
  have hset := (h.holding calls).value sig.id (by rw [hi]; rfl)
  rw [txValue, hset, and_maskFor_toNat _ _ (h.fits pdu hpdu sig hsig).size]

theorem Built.unpack_pack (hplaced : pdu.WellPlaced) :
    ∃ buf e', (e₀.run calls).packPdu pdu.id = .ok buf ∧
      (e₀.run calls).unpackInto pdu.id buf = .ok e' ∧
      ∀ sig ∈ pdu.signals, e'.lastReceived sig.id =
        some (UInt64.ofNat ((lastSet sig.id calls).toNat % 2 ^ sig.bitSize)) := by
  obtain ⟨e', hrun, -, -, hreceived⟩ :=
    h.unpackInto_run hpdu calls (hplaced.length_pack (e₀.run calls).txValue)
  refine ⟨_, e', packPdu_of_stored (h.stored_run hpdu calls), hrun, fun sig hsig => ?_⟩
  have hgot := hplaced.unpackSignal_pack (e₀.run calls).txValue hsig
  rw [h.txValue_run hpdu calls hsig, Nat.mod_mod] at hgot
  rw [hreceived sig hsig, ← hgot, UInt64.ofNat_toNat]

theorem Built.pack_unpack (hplaced : pdu.WellPlaced) {buf : List UInt8}
    (hlength : buf.length = pdu.length) (hzero : pdu.ZeroOutside buf) {order : List SignalDef}
    (horder : order.Perm pdu.signals) :
    ∃ e' e'', (e₀.run calls).unpackInto pdu.id buf = .ok e' ∧
      order.foldlM setToReceived e' = .ok e'' ∧ e''.packPdu pdu.id = .ok buf := by
  obtain ⟨e', hrun, hpdus, hindex, hreceived⟩ := h.unpackInto_run hpdu calls hlength
  have hin : ∀ sig ∈ order, sig ∈ pdu.signals := fun sig => horder.mem_iff.1
  have hknown : ∀ sig ∈ order, (e'.sigIndex sig.id).isSome := by
    intro sig hsig
    rw [hindex]
    exact h.known_run hpdu calls (hin sig hsig)
  have hreceived' : ∀ sig ∈ order, (e'.lastReceived sig.id).isSome := by
    intro sig hsig
    rw [hreceived sig (hin sig hsig)]
    rfl
  obtain ⟨e'', hset, hpdus', hall, -⟩ := foldlM_setToReceived hknown hreceived'
  have hstored : e''.pdus pdu.id = some pdu := by
    rw [hpdus', hpdus]
    exact h.stored_run hpdu calls
  refine ⟨e', e'', hrun, hset, ?_⟩
  rw [packPdu_of_stored hstored]
  congr 1
  apply hplaced.pack_unpackSignal _ hlength hzero
  intro sig hsig
  -- The mask takes nothing from a value that was unpacked.
  have hlt : (unpackSignal buf sig).toNat < 2 ^ sig.bitSize := by
    rw [hplaced.unpackSignal_toNat buf ⟨sig, hsig⟩]
    exact Nat.ofBits_lt_two_pow _
  apply UInt64.toNat_inj.1
  rw [txValue, hall sig (horder.mem_iff.2 hsig), hreceived sig hsig, Option.getD_some,
    and_maskFor_toNat _ _ (hplaced.fits sig hsig).size, Nat.mod_eq_of_lt hlt]

end RoundTrip

/-- **COM round trips.** After any calls on an accepted database, a PDU with disjoint signals carries
each signal's last set value to the receiver, up to the signal's width; and a buffer with nothing
outside the signals is packed again from the values unpacked from it, set in any order. -/
theorem pack_unpack_roundTrip (db : List PduDef) (e₀ : SignalEngine) (pdu : PduDef)
    (calls : List Call) (hdb : make db = .ok e₀) (hpdu : pdu ∈ db) (hdisjoint : pdu.Disjoint) :
    (∃ buf e', (e₀.run calls).packPdu pdu.id = .ok buf ∧
      (e₀.run calls).unpackInto pdu.id buf = .ok e' ∧
      ∀ sig ∈ pdu.signals, e'.lastReceived sig.id =
        some (UInt64.ofNat ((lastSet sig.id calls).toNat % 2 ^ sig.bitSize))) ∧
    ∀ buf : List UInt8, buf.length = pdu.length → pdu.ZeroOutside buf →
      ∀ order : List SignalDef, order.Perm pdu.signals → ∃ e' e'',
        (e₀.run calls).unpackInto pdu.id buf = .ok e' ∧
        order.foldlM setToReceived e' = .ok e'' ∧ e''.packPdu pdu.id = .ok buf := by
  have hbuilt := make_built hdb
  have hplaced : pdu.WellPlaced := ⟨hbuilt.fits pdu hpdu, hdisjoint⟩
  refine ⟨hbuilt.unpack_pack hpdu calls hplaced, ?_⟩
  intro buf hlength hzero order horder
  exact hbuilt.pack_unpack hpdu calls hplaced hlength hzero horder

/-- A little-endian and a big-endian signal of a four-byte PDU. -/
def mixedPdu : PduDef := ⟨2, 4, [⟨100, 3, 12, .kLittle⟩, ⟨101, 23, 9, .kBig⟩]⟩

theorem pack_unpack_roundTrip_mixed :
    ∃ e₀, make [mixedPdu] = .ok e₀ ∧
      (∃ buf e', (e₀.run [.setSignal 100 0x5ABC, .setSignal 999 1]).packPdu 2 = .ok buf ∧
        (e₀.run [.setSignal 100 0x5ABC, .setSignal 999 1]).unpackInto 2 buf = .ok e' ∧
        e'.lastReceived 100 = some 0xABC ∧ e'.lastReceived 101 = some 0) ∧
      mixedPdu.ZeroOutside [0xE0, 0x55, 0xA7, 0x80] ∧
      ∃ e' e'', e₀.unpackInto 2 [0xE0, 0x55, 0xA7, 0x80] = .ok e' ∧
        mixedPdu.signals.foldlM setToReceived e' = .ok e'' ∧
        e''.packPdu 2 = .ok [0xE0, 0x55, 0xA7, 0x80] := by
  have hdisjoint : mixedPdu.Disjoint := by decide +kernel
  have hzero : mixedPdu.ZeroOutside [0xE0, 0x55, 0xA7, 0x80] := by decide +kernel
  refine ⟨_, rfl, ?_, hzero, ?_⟩
  · obtain ⟨⟨buf, e', hpack, hunpack, hreceived⟩, -⟩ := pack_unpack_roundTrip [mixedPdu] _ mixedPdu
      [.setSignal 100 0x5ABC, .setSignal 999 1] rfl (List.mem_singleton.2 rfl) hdisjoint
    refine ⟨buf, e', hpack, hunpack, ?_, ?_⟩
    · exact hreceived ⟨100, 3, 12, .kLittle⟩ (by decide)
    · exact hreceived ⟨101, 23, 9, .kBig⟩ (by decide)
  · exact (pack_unpack_roundTrip [mixedPdu] _ mixedPdu [] rfl (List.mem_singleton.2 rfl)
      hdisjoint).2 _ rfl hzero mixedPdu.signals (.refl _)

end SignalEngine

end Tc8Harness.Autosar
