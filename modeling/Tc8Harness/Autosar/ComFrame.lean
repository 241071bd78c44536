import Tc8Harness.Autosar.ComRoundTrip
import Tc8Harness.Lib.CheckedAccess

/-!
# Bounds and frames of the signal engine

What the constructor's check of `maxByte` is good for: on an accepted database no call indexes outside its
PDU, although every position is a sum that wraps. And what the two calls that write leave alone:
`setSignal` every other bit of the packed PDU, `unpackInto` the received values of every other PDU.
-/

namespace Tc8Harness.Autosar

open CheckedAccess Loops

/-! ## Checked packing -/

def packSignalChecked (value : UInt64) (buf : List UInt8) (sig : SignalDef) : Option (List UInt8) :=
  (List.range sig.bitSize).foldlM (fun buf k =>
    if (value >>> UInt64.ofNat k) &&& 1 != 0 then
      orByte buf (signalBit sig k).byte (signalBit sig k).mask
    else some buf) buf

def PduDef.packChecked (pdu : PduDef) (value : SignalDef → UInt64) : Option (List UInt8) :=
  pdu.signals.foldlM (fun buf sig => packSignalChecked (value sig) buf sig)
    (List.replicate pdu.length 0x00)

def unpackSignalChecked (buf : List UInt8) (sig : SignalDef) : Option UInt64 :=
  (List.range sig.bitSize).foldlM (fun value k => do
    let byte ← load buf (signalBit sig k).byte
    return if byte &&& (signalBit sig k).mask != 0 then value ||| (1 <<< UInt64.ofNat k) else value) 0

theorem SignalDef.FitsIn.byte_lt {sig : SignalDef} {length k : Nat} (h : sig.FitsIn length)
    (hk : k < sig.bitSize) : (signalBit sig k).byte < length := by
  rw [signalBit_eq]
  exact h.inside k hk

theorem packSignalChecked_eq {sig : SignalDef} {buf : List UInt8} (h : sig.FitsIn buf.length)
    (value : UInt64) : packSignalChecked value buf sig = some (packSignal value buf sig) := by
  refine foldlM_eq_some (fun buf' => buf'.length = buf.length) rfl fun k hk buf' hlength => ?_
  have hlt : (signalBit sig k).byte < buf'.length := by
    rw [hlength]
    exact h.byte_lt (List.mem_range.mp hk)
  split
  · exact ⟨orByte_eq hlt _, by rw [length_orBit, hlength]⟩
  · exact ⟨rfl, hlength⟩

theorem PduDef.packChecked_eq {pdu : PduDef} (h : ∀ sig ∈ pdu.signals, sig.FitsIn pdu.length)
    (value : SignalDef → UInt64) : pdu.packChecked value = some (pdu.pack value) := by
  refine foldlM_eq_some (fun buf => buf.length = pdu.length) List.length_replicate ?_
  intro sig hsig buf hlength
  have hfits : sig.FitsIn buf.length := by
    rw [hlength]
    exact h sig hsig
  exact ⟨packSignalChecked_eq hfits _, (packSignal_spec hfits _).1.trans hlength⟩

/-- Of a buffer at least as long as the PDU, only the bytes of the PDU are read. -/
theorem unpackSignalChecked_eq {sig : SignalDef} {length : Nat} (h : sig.FitsIn length)
    {buf : List UInt8} (hlength : length ≤ buf.length) :
    unpackSignalChecked (buf.take length) sig = some (unpackSignal buf sig) := by
  refine foldlM_eq_some (fun _ => True) trivial fun k hk value _ => ⟨?_, trivial⟩
  have hlt := h.byte_lt (List.mem_range.mp hk)
  have hload : load (buf.take length) (signalBit sig k).byte =
      some (buf.getD (signalBit sig k).byte 0) := by
    rw [load, List.getElem?_take_of_lt hlt]
    exact load_eq (hlt.trans_le hlength)
  rw [bind_of_eq_some hload]
  rfl

namespace SignalEngine

def packPduChecked (e : SignalEngine) (pduId : UInt32) : Option (List UInt8) :=
  (e.pdus pduId).bind fun pdu => pdu.packChecked e.txValue

def unpackIntoChecked (e : SignalEngine) (pduId : UInt32) (buf : List UInt8) : Option SignalEngine := do
  let pdu ← e.pdus pduId
  let rx ← pdu.signals.foldlM (fun (rx : UInt32 → Option UInt64) sig => do
    let value ← unpackSignalChecked buf sig
    return Function.update rx sig.id (some value)) e.rxValues
  return { e with rxValues := rx }

/-! ## The database of an engine -/

/-- Every PDU an engine knows is one of the database, under its own id. -/
theorem make_pdus {db : List PduDef} {e : SignalEngine} (h : make db = .ok e) :
    ∀ id pdu, e.pdus id = some pdu → pdu ∈ db ∧ pdu.id = id := by
  refine foldlM_ok_invariant (fun db (e : SignalEngine) =>
    ∀ id pdu, e.pdus id = some pdu → pdu ∈ db ∧ pdu.id = id) ?_ (by simp) h
  intro db new e e' hknown hadd id pdu hid
  unfold addPdu at hadd
  split at hadd
  · nomatch hadd
  · cases hsigs : new.signals.zipIdx.foldlM (SignalEngine.addSignal new) e with
    | error message =>
      rw [hsigs] at hadd
      nomatch hadd
    | ok e₁ =>
      rw [hsigs] at hadd
      obtain rfl := Except.ok.inj hadd
      have hpdus : e₁.pdus = e.pdus :=
        foldlM_ok_invariant (fun _ (e₁ : SignalEngine) => e₁.pdus = e.pdus)
          (fun _ _ _ _ hsame hsig => by rw [(addSignal_ok hsig).2.2]; exact hsame) rfl hsigs
      change Function.update e₁.pdus new.id (some new) id = some pdu at hid
      by_cases heq : id = new.id
      · subst heq
        rw [Function.update_self] at hid
        obtain rfl := Option.some.inj hid
        exact ⟨by simp, rfl⟩
      · rw [Function.update_of_ne heq, hpdus] at hid
        obtain ⟨hmem, hsame⟩ := hknown id pdu hid
        exact ⟨List.mem_append_left _ hmem, hsame⟩

section Run

variable {db : List PduDef} {e₀ : SignalEngine} (hdb : make db = .ok e₀) (calls : List Call)

include hdb

theorem pdus_run {id : UInt32} {pdu : PduDef} (h : (e₀.run calls).pdus id = some pdu) :
    pdu ∈ db ∧ pdu.id = id := by
  rw [((make_built hdb).holding calls).pdus] at h
  exact make_pdus hdb id pdu h

theorem packPduChecked_run {pduId : UInt32} {buf : List UInt8}
    (h : (e₀.run calls).packPdu pduId = .ok buf) : (e₀.run calls).packPduChecked pduId = some buf := by
  unfold packPdu at h
  unfold packPduChecked
  cases hpdu : (e₀.run calls).pdus pduId with
  | none =>
    rw [hpdu] at h
    nomatch h
  | some pdu =>
    rw [hpdu] at h
    have hfits := (make_built hdb).fits pdu (pdus_run hdb calls hpdu).1
    rw [Option.bind_some, PduDef.packChecked_eq hfits]
    exact congrArg some (Except.ok.inj h)

theorem unpackIntoChecked_run {pduId : UInt32} {buf : List UInt8} {e' : SignalEngine}
    (h : (e₀.run calls).unpackInto pduId buf = .ok e') :
    (e₀.run calls).unpackIntoChecked pduId (buf.take ((e₀.run calls).pduLength pduId)) = some e' := by
  unfold unpackInto at h
  unfold unpackIntoChecked pduLength
  cases hpdu : (e₀.run calls).pdus pduId with
  | none =>
    rw [hpdu] at h
    nomatch h
  | some pdu =>
    rw [hpdu] at h
    dsimp only at h
    split at h
    · nomatch h
    · next hlong =>
      obtain rfl := Except.ok.inj h
      have hfits := (make_built hdb).fits pdu (pdus_run hdb calls hpdu).1
      rw [bind_of_eq_some rfl]
      refine bind_of_eq_some ?_ _
      refine foldlM_eq_some (fun _ => True) trivial fun sig hsig rx _ => ⟨?_, trivial⟩
      rw [bind_of_eq_some (unpackSignalChecked_eq (hfits sig hsig) (Nat.le_of_not_lt hlong))]
      rfl

end Run

/-! ## The frame of `setSignal` -/

/-- Two buffers of one PDU that differ at the bits of one signal only. -/
structure DiffersAt (pdu : PduDef) (sigId : UInt32) (buf buf' : List UInt8) : Prop where
  length : buf'.length = buf.length
  bits : ∀ p, bitAt buf' (littleBit p) ≠ bitAt buf (littleBit p) →
    ∃ sig ∈ pdu.signals, sig.id = sigId ∧ ∃ k < sig.bitSize, signalBit sig k = littleBit p

theorem mem_ones_pack {pdu : PduDef} (h : ∀ sig ∈ pdu.signals, sig.FitsIn pdu.length)
    (value : SignalDef → UInt64) (p : Nat) : p ∈ ones (pdu.pack value) ↔
      ∃ sig ∈ pdu.signals, ∃ k < sig.bitSize, (value sig).toNat.testBit k = true ∧ bitPos sig k = p := by
  rw [PduDef.pack, (foldl_packSignal (by rwa [List.length_replicate])).2, ones_replicate_zero,
    Set.empty_union]
  rfl

theorem length_pack {pdu : PduDef} (h : ∀ sig ∈ pdu.signals, sig.FitsIn pdu.length)
    (value : SignalDef → UInt64) : (pdu.pack value).length = pdu.length := by
  rw [PduDef.pack, (foldl_packSignal (by rwa [List.length_replicate])).1, List.length_replicate]

/-- Values that agree on the other signals leave every bit outside the signal alone. -/
theorem pack_differsAt {pdu : PduDef} (h : ∀ sig ∈ pdu.signals, sig.FitsIn pdu.length)
    {value value' : SignalDef → UInt64} {sigId : UInt32}
    (hvalue : ∀ sig, sig.id ≠ sigId → value' sig = value sig) :
    DiffersAt pdu sigId (pdu.pack value) (pdu.pack value') := by
  refine ⟨by rw [length_pack h, length_pack h], fun p hne => ?_⟩
  by_contra hout
  -- A one outside the signal is another signal's, so it is there with either values.
  have hother : ∀ sig ∈ pdu.signals, ∀ k < sig.bitSize, bitPos sig k = p → value' sig = value sig := by
    intro sig hsig k hk hpos
    refine hvalue sig fun hid => hout ⟨sig, hsig, hid, k, hk, ?_⟩
    rw [signalBit_eq, hpos]
  apply hne
  rw [Bool.eq_iff_iff]
  change p ∈ ones (pdu.pack value') ↔ p ∈ ones (pdu.pack value)
  rw [mem_ones_pack h, mem_ones_pack h]
  constructor
  · rintro ⟨sig, hsig, k, hk, hbit, hpos⟩
    rw [hother sig hsig k hk hpos] at hbit
    exact ⟨sig, hsig, k, hk, hbit, hpos⟩
  · rintro ⟨sig, hsig, k, hk, hbit, hpos⟩
    rw [← hother sig hsig k hk hpos] at hbit
    exact ⟨sig, hsig, k, hk, hbit, hpos⟩

/-- A signal disjoint from the one that differs reads the same from both buffers. -/
theorem DiffersAt.unpackSignal_eq {pdu : PduDef} {sigId : UInt32} {buf buf' : List UInt8}
    (h : DiffersAt pdu sigId buf buf') (hplaced : pdu.WellPlaced) {sig : SignalDef}
    (hsig : sig ∈ pdu.signals) (hid : sig.id ≠ sigId) :
    unpackSignal buf' sig = unpackSignal buf sig := by
  have hsize := (hplaced.fits sig hsig).size
  apply UInt64.toNat_inj.1
  apply Nat.eq_of_testBit_eq
  intro k
  rw [Bool.eq_iff_iff, testBit_unpackSignal hsize, testBit_unpackSignal hsize]
  refine and_congr_right fun hk => ?_
  have hsame : bitAt buf' (littleBit (bitPos sig k)) = bitAt buf (littleBit (bitPos sig k)) := by
    by_contra hne
    obtain ⟨other, hother, hid', l, hl, hbit⟩ := h.bits _ hne
    rw [signalBit_eq] at hbit
    have heq := hplaced.eq_of_bitPos_eq hother hsig hl hk (littleBit_injective hbit)
    exact hid (heq ▸ hid')
  change bitAt buf' _ = true ↔ bitAt buf _ = true
  rw [hsame]

theorem setSignal_ok {e e' : SignalEngine} {sigId : UInt32} {value : UInt64}
    (h : e.setSignal sigId value = .ok e') :
    e' = { e with txValues := Function.update e.txValues sigId (some value) } := by
  unfold setSignal at h
  split at h
  · nomatch h
  · exact (Except.ok.inj h).symm

theorem txValue_setSignal {e e' : SignalEngine} {sigId : UInt32} {value : UInt64}
    (h : e.setSignal sigId value = .ok e') {sig : SignalDef} (hid : sig.id ≠ sigId) :
    e'.txValue sig = e.txValue sig := by
  rw [setSignal_ok h, txValue, txValue]
  change (Function.update e.txValues sigId (some value) sig.id).getD 0 &&& _ = _
  rw [Function.update_of_ne hid]

/-! ## The frame of `unpackInto` -/

theorem foldl_received_of_ne {buf : List UInt8} {id : UInt32} {sigs : List SignalDef}
    {rx : UInt32 → Option UInt64} (h : ∀ sig ∈ sigs, sig.id ≠ id) :
    (sigs.foldl (fun (rx : UInt32 → Option UInt64) sig =>
      Function.update rx sig.id (some (unpackSignal buf sig))) rx) id = rx id := by
  induction sigs generalizing rx with
  | nil => rfl
  | cons first sigs ih =>
    rw [List.foldl_cons, ih fun sig hsig => h sig (List.mem_cons_of_mem _ hsig)]
    exact Function.update_of_ne (h first List.mem_cons_self).symm ..

/-- Whether it throws or not. -/
theorem lastReceived_unpackInto_of_ne {e : SignalEngine} {pduId id : UInt32} (buf : List UInt8)
    (h : ∀ pdu, e.pdus pduId = some pdu → ∀ sig ∈ pdu.signals, sig.id ≠ id) :
    (e.step (.unpackInto pduId buf)).lastReceived id = e.lastReceived id := by
  simp only [step, unpackInto]
  cases hpdu : e.pdus pduId with
  | none => rfl
  | some pdu =>
    by_cases hshort : buf.length < pdu.length
    · simp only [if_pos hshort]
    · simp only [if_neg hshort]
      exact foldl_received_of_ne (h pdu hpdu)

/-- A signal id is of one PDU of the database only. -/
theorem Built.pdu_id_eq {db : List PduDef} {e : SignalEngine} (h : Built db e) {a b : PduDef}
    (ha : a ∈ db) (hb : b ∈ db) {s t : SignalDef} (hs : s ∈ a.signals) (ht : t ∈ b.signals)
    (hid : s.id = t.id) : a.id = b.id := by
  obtain ⟨i, -, hi⟩ := h.known ha hs
  obtain ⟨j, -, hj⟩ := h.known hb ht
  rw [hid, hj] at hi
  exact (Prod.mk.inj (Option.some.inj hi)).1.symm

/-! ## Bounds and frames of every run -/

section Frame

variable {db : List PduDef} {e₀ : SignalEngine} (h : Built db e₀) (calls : List Call)

include h

theorem Built.setSignal_frame {sigId : UInt32} {value : UInt64} {e' : SignalEngine}
    (hset : (e₀.run calls).setSignal sigId value = .ok e') {pdu : PduDef} (hpdu : pdu ∈ db) :
    ∃ buf buf', (e₀.run calls).packPdu pdu.id = .ok buf ∧ e'.packPdu pdu.id = .ok buf' ∧
      DiffersAt pdu sigId buf buf' ∧ (pdu.Disjoint → ∀ sig ∈ pdu.signals, sig.id ≠ sigId →
        unpackSignal buf' sig = unpackSignal buf sig) := by
  have hstored := h.stored_run hpdu calls
  have hstored' : e'.pdus pdu.id = some pdu := by
    rw [setSignal_ok hset]
    exact hstored
  have hfits := h.fits pdu hpdu
  have hdiffers : DiffersAt pdu sigId (pdu.pack (e₀.run calls).txValue) (pdu.pack e'.txValue) :=
    pack_differsAt hfits fun sig hid => txValue_setSignal hset hid
  refine ⟨_, _, packPdu_of_stored hstored, packPdu_of_stored hstored', hdiffers, ?_⟩
  intro hdisjoint sig hsig hid
  exact hdiffers.unpackSignal_eq ⟨hfits, hdisjoint⟩ hsig hid

theorem Built.unpackInto_frame (hknown : ∀ id pdu, e₀.pdus id = some pdu → pdu ∈ db ∧ pdu.id = id)
    {pduId : UInt32} (buf : List UInt8) {pdu : PduDef} (hpdu : pdu ∈ db) (hid : pdu.id ≠ pduId)
    {sig : SignalDef} (hsig : sig ∈ pdu.signals) :
    ((e₀.run calls).step (.unpackInto pduId buf)).lastReceived sig.id =
      (e₀.run calls).lastReceived sig.id := by
  refine lastReceived_unpackInto_of_ne buf fun other hother sig' hsig' heq => hid ?_
  rw [(h.holding calls).pdus] at hother
  obtain ⟨hmem, hother⟩ := hknown pduId other hother
  rw [← hother]
  exact h.pdu_id_eq hpdu hmem hsig hsig' heq.symm

end Frame

/-- **Bounds and frames.** On an accepted database every bit of a signal is in a byte of its PDU, so
after any calls `packPdu` writes and `unpackInto` reads the PDU's own bytes only. Setting a signal changes
no bit of a packed PDU but the signal's, so no other signal of a PDU with disjoint signals; and unpacking
one PDU, or failing to, changes the received value of no signal of another. -/
theorem bounds_and_frames (db : List PduDef) (e₀ : SignalEngine) (calls : List Call)
    (hdb : make db = .ok e₀) :
    (∀ pdu ∈ db, ∀ sig ∈ pdu.signals, ∀ k < sig.bitSize, (signalBit sig k).byte < pdu.length) ∧
    (∀ pduId buf, (e₀.run calls).packPdu pduId = .ok buf →
      (e₀.run calls).packPduChecked pduId = some buf) ∧
    (∀ pduId buf e', (e₀.run calls).unpackInto pduId buf = .ok e' →
      (e₀.run calls).unpackIntoChecked pduId (buf.take ((e₀.run calls).pduLength pduId)) = some e') ∧
    (∀ sigId value e', (e₀.run calls).setSignal sigId value = .ok e' → ∀ pdu ∈ db,
      ∃ buf buf', (e₀.run calls).packPdu pdu.id = .ok buf ∧ e'.packPdu pdu.id = .ok buf' ∧
        DiffersAt pdu sigId buf buf' ∧ (pdu.Disjoint → ∀ sig ∈ pdu.signals, sig.id ≠ sigId →
          unpackSignal buf' sig = unpackSignal buf sig)) ∧
    ∀ pduId buf, ∀ pdu ∈ db, pdu.id ≠ pduId → ∀ sig ∈ pdu.signals,
      ((e₀.run calls).step (.unpackInto pduId buf)).lastReceived sig.id =
        (e₀.run calls).lastReceived sig.id := by
  have hbuilt := make_built hdb
  refine ⟨fun pdu hpdu sig hsig k hk => (hbuilt.fits pdu hpdu sig hsig).byte_lt hk, ?_, ?_, ?_, ?_⟩
  · intro pduId buf hpack
    exact packPduChecked_run hdb calls hpack
  · intro pduId buf e' hunpack
    exact unpackIntoChecked_run hdb calls hunpack
  · intro sigId value e' hset pdu hpdu
    exact hbuilt.setSignal_frame calls hset hpdu
  · intro pduId buf pdu hpdu hid sig hsig
    exact hbuilt.unpackInto_frame calls (make_pdus hdb) buf hpdu hid hsig

/-- A PDU beside `mixedPdu`, whose only signal wraps past the highest position. -/
def wrappedPdu : PduDef := ⟨3, 2 ^ 61, [⟨102, 2 ^ 64 - 4, 8, .kLittle⟩]⟩

theorem bounds_and_frames_mixed :
    ∃ e₀, make [mixedPdu, wrappedPdu] = .ok e₀ ∧
      (∀ k < 8, (signalBit ⟨102, 2 ^ 64 - 4, 8, .kLittle⟩ k).byte < 2 ^ 61) ∧
      (∃ e' buf buf', (e₀.run []).setSignal 100 0x5ABC = .ok e' ∧ e₀.packPdu 2 = .ok buf ∧
        e'.packPdu 2 = .ok buf' ∧ DiffersAt mixedPdu 100 buf buf' ∧
        unpackSignal buf' ⟨101, 23, 9, .kBig⟩ = unpackSignal buf ⟨101, 23, 9, .kBig⟩) ∧
      (e₀.step (.unpackInto 2 [0xE0, 0x55, 0xA7, 0x80])).lastReceived 102 = e₀.lastReceived 102 := by
  have hdb : ∃ e₀, make [mixedPdu, wrappedPdu] = .ok e₀ := ⟨_, rfl⟩
  obtain ⟨e₀, hdb⟩ := hdb
  obtain ⟨hbounds, -, -, hset, hunpack⟩ := bounds_and_frames [mixedPdu, wrappedPdu] e₀ [] hdb
  have hmem : mixedPdu ∈ [mixedPdu, wrappedPdu] := by simp
  have hmem' : wrappedPdu ∈ [mixedPdu, wrappedPdu] := by simp
  refine ⟨e₀, hdb, hbounds wrappedPdu hmem' ⟨102, 2 ^ 64 - 4, 8, .kLittle⟩ (by simp [wrappedPdu]), ?_, ?_⟩
  · have hsig : (⟨100, 3, 12, .kLittle⟩ : SignalDef) ∈ mixedPdu.signals := by decide
    obtain ⟨ref, href⟩ := Option.isSome_iff_exists.1 ((make_built hdb).known_run hmem [] hsig)
    have hok : ∃ e', (e₀.run []).setSignal 100 0x5ABC = .ok e' := ⟨_, by rw [setSignal, href]⟩
    obtain ⟨e', hok⟩ := hok
    obtain ⟨buf, buf', hbuf, hbuf', hdiffers, hother⟩ := hset 100 0x5ABC _ hok mixedPdu hmem
    exact ⟨e', buf, buf', hok, hbuf, hbuf', hdiffers,
      hother (by decide +kernel) _ (by decide) (by decide)⟩
  · exact hunpack 2 _ wrappedPdu hmem' (by decide) ⟨102, 2 ^ 64 - 4, 8, .kLittle⟩ (by simp [wrappedPdu])


end SignalEngine

end Tc8Harness.Autosar
