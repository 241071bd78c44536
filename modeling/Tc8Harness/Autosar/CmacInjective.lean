import Tc8Harness.Autosar.Rfc4493

/-!
# One block of a MAC

Every step of an AES round can be undone: the S-box because a byte has one inverse, the rows because they
are moved, the columns because the polynomial they are multiplied by has an inverse modulo x^4 + 1. The
cipher is therefore a permutation of the blocks under every key (`aes128Encrypt_bijective`), and the tags
of two messages of one length that differ within one block are different (`one_block_tags_ne`).
-/

namespace Tc8Harness.Autosar.Crypto

open Fips197 Rfc4493 CbcMac Polynomial

/-! ## The steps of a round -/

theorem addRoundKey_injective (rk : RoundKeys) (round : Nat) :
    Function.Injective fun state => addRoundKey state rk round := by
  intro a b h
  apply byteOf_ext
  intro i hi
  have hbyte : byteOf (addRoundKey a rk round) i = byteOf (addRoundKey b rk round) i :=
    congrArg (byteOf · i) h
  rw [addRoundKey, addRoundKey, byteOf_ofFn _ hi, byteOf_ofFn _ hi, UInt8.xor_left_inj] at hbyte
  rwa [← byteOf_get, ← byteOf_get] at hbyte

theorem subByte_injective : Function.Injective subByte := by
  intro a b h
  have hinv : invByte a = invByte b := congrArg unaffine h
  have hzero : ∀ c, c ≠ 0 → invByte c ≠ 0 := by
    intro c hc hinv
    have hmul := elem_mul_invByte hc
    rw [hinv, elem_zero, mul_zero] at hmul
    exact zero_ne_one hmul
  have hself : invByte 0 = 0 := by decide +kernel
  by_cases ha : a = 0
  · by_contra hne
    exact hzero b (fun hb => hne (ha.trans hb.symm)) (by rw [← hinv, ha, hself])
  · by_cases hb : b = 0
    · exact absurd (by rw [hinv, hb, hself]) (hzero a ha)
    · apply elem_bijective.1
      -- both are the inverse of the one byte
      calc elem a = elem a * (elem b * elem (invByte b)) := by rw [elem_mul_invByte hb, mul_one]
        _ = elem a * elem (invByte a) * elem b := by rw [hinv]; ring
        _ = elem b := by rw [elem_mul_invByte ha, one_mul]

theorem subBytes_injective : Function.Injective subBytes := by
  intro a b h
  apply Vector.ext
  intro i hi
  have hbyte : (subBytes a)[i] = (subBytes b)[i] := by rw [h]
  rw [subBytes, subBytes, Vector.getElem_map, Vector.getElem_map] at hbyte
  exact subByte_injective hbyte

/-- A step of the cipher is as injective as its counterpart on rows and columns. -/
theorem injective_of_ofBlock {step : Block → Block} {step' : State → State}
    (hstep : ∀ b, State.ofBlock (step b) = step' (.ofBlock b)) (h : Function.Injective step') :
    Function.Injective step := by
  intro a b hab
  have hstate : step' (.ofBlock a) = step' (.ofBlock b) := by rw [← hstep, ← hstep, hab]
  rw [← toBlock_ofBlock a, ← toBlock_ofBlock b, h hstate]

theorem shiftRows_injective : Function.Injective shiftRows := by
  refine injective_of_ofBlock ofBlock_shiftRows ?_
  intro s s' h
  funext r c
  have hcell := congrFun (congrFun h r) (c - r)
  simpa only [Fips197.shiftRows, sub_add_cancel] using hcell

/-- 0b x^3 + 0d x^2 + 09 x + 0e, by powers of the field's x. -/
noncomputable def unmixPoly : GF256[X] :=
  C (x ^ 3 + x + 1) * X ^ 3 + C (x ^ 3 + x ^ 2 + 1) * X ^ 2 + C (x ^ 3 + 1) * X + C (x ^ 3 + x ^ 2 + x)

theorem unmixPoly_mul_mixPoly : (X ^ 4 + 1 : GF256[X]) ∣ unmixPoly * mixPoly - 1 := by
  let t : GF256[X] := C x
  have htwo : (2 : GF256[X]) = 0 := CharTwo.two_eq_zero
  refine ⟨1 + X ^ 2 + t ^ 2 * (1 + X + X ^ 2) + t ^ 3 * (1 + X + X ^ 2) + t ^ 4 * (1 + X + X ^ 2), ?_⟩
  simp only [unmixPoly, mixPoly, elem_one, elem_two, elem_three, map_add, map_pow, map_one]
  -- what is left over is even
  linear_combination (-1 + X ^ 3 + X ^ 4 + X ^ 5 + t * (X + X ^ 2 + X ^ 3 + X ^ 4 + X ^ 5 + X ^ 6) +
    2 * t ^ 2 * X ^ 3 + t ^ 3 * (X ^ 2 + 2 * X ^ 3 + X ^ 4 + X ^ 5) + t ^ 4 * X ^ 3) * htwo

theorem columnPoly_injective : Function.Injective columnPoly := by
  intro a b h
  funext r
  apply elem_bijective.1
  rw [← coeff_columnPoly, ← coeff_columnPoly, h]

theorem mixColumn_injective : Function.Injective mixColumn := by
  intro a b h
  apply columnPoly_injective
  have hrem : (mixPoly * columnPoly a) %ₘ (X ^ 4 + 1) = (mixPoly * columnPoly b) %ₘ (X ^ 4 + 1) := by
    rw [mixPoly_mul_columnPoly, mixPoly_mul_columnPoly, h]
  have hself : ∀ a, columnPoly a %ₘ (X ^ 4 + 1) = columnPoly a := by
    intro a
    rw [modByMonic_eq_self_iff monic_X_four, degree_X_four]
    exact degree_columnPoly_lt a
  have hmix : (X ^ 4 + 1 : GF256[X]) ∣ mixPoly * (columnPoly a - columnPoly b) := by
    rw [mul_sub, ← modByMonic_eq_zero_iff_dvd monic_X_four, sub_modByMonic, hrem, sub_self]
  have hdvd : (X ^ 4 + 1 : GF256[X]) ∣ columnPoly a - columnPoly b := by
    have hsplit : columnPoly a - columnPoly b =
        unmixPoly * (mixPoly * (columnPoly a - columnPoly b)) -
          (unmixPoly * mixPoly - 1) * (columnPoly a - columnPoly b) := by ring
    rw [hsplit]
    exact dvd_sub (hmix.mul_left _) (unmixPoly_mul_mixPoly.mul_right _)
  rw [← hself a, ← hself b]
  exact modByMonic_eq_of_dvd_sub monic_X_four hdvd

theorem mixColumns_injective : Function.Injective mixColumns := by
  refine injective_of_ofBlock ofBlock_mixColumns ?_
  intro s s' h
  funext r c
  have hcolumn : mixColumn (fun r => s r c) = mixColumn fun r => s' r c := by
    funext r
    have hcell := congrFun (congrFun h r) c
    rwa [Fips197.mixColumns, Fips197.mixColumns, mixPoly_mul_columnPoly, mixPoly_mul_columnPoly,
      coeff_columnPoly, coeff_columnPoly, byte_elem, byte_elem] at hcell
  exact congrFun (mixColumn_injective hcolumn) r

/-! ## The cipher -/

theorem rounds_injective (rk : RoundKeys) (rounds : List Nat) :
    Function.Injective fun state => rounds.foldl
      (fun state round => addRoundKey (mixColumns (shiftRows (subBytes state))) rk round) state := by
  induction rounds with
  | nil => exact fun _ _ h => h
  | cons round rounds ih =>
    intro a b h
    exact subBytes_injective (shiftRows_injective (mixColumns_injective
      (addRoundKey_injective rk round (ih h))))

theorem aes128Encrypt_injective (rk : RoundKeys) : Function.Injective (aes128Encrypt rk) := by
  intro a b h
  exact addRoundKey_injective rk 0 (rounds_injective rk _ (subBytes_injective (shiftRows_injective
    (addRoundKey_injective rk 10 h))))

instance : Finite Block := by
  refine Finite.of_injective (fun (b : Block) (i : Fin 16) => (b.get i).toFin) ?_
  intro a b h
  apply Vector.ext
  intro i hi
  exact UInt8.toFin_inj.mp (congrFun h ⟨i, hi⟩)

theorem aes128Encrypt_bijective (rk : RoundKeys) : Function.Bijective (aes128Encrypt rk) :=
  Finite.injective_iff_bijective.mp (aes128Encrypt_injective rk)

/-! ## Messages -/

theorem blockXor_cancels : Cancels blockXor := by
  have hbyte : ∀ a b i, i < 16 → byteOf (blockXor a b) i = byteOf a i ^^^ byteOf b i := by
    intro a b i hi
    rw [blockXor, byteOf_ofFn _ hi, ← byteOf_get, ← byteOf_get]
  constructor
  · intro x a b h
    apply byteOf_ext
    intro i hi
    have heq := congrArg (byteOf · i) h
    rwa [hbyte _ _ _ hi, hbyte _ _ _ hi, UInt8.xor_right_inj] at heq
  · intro block a b h
    apply byteOf_ext
    intro i hi
    have heq := congrArg (byteOf · i) h
    dsimp only at heq
    rwa [hbyte _ _ _ hi, hbyte _ _ _ hi, UInt8.xor_left_inj] at heq

/-- Bytes that fit a block are told by it. -/
theorem blockOf_inj {a b : List UInt8} (hlength : a.length = b.length) (hle : a.length ≤ 16)
    (h : blockOf a = blockOf b) : a = b := by
  apply List.ext_getElem hlength
  intro i hi hi'
  have hbyte := congrArg (byteOf · i) h
  rw [blockOf, blockOf, byteOf_ofFn _ (by omega), byteOf_ofFn _ (by omega)] at hbyte
  dsimp only at hbyte
  rwa [List.getD_eq_getElem _ _ hi, List.getD_eq_getElem _ _ hi'] at hbyte

theorem finalBlock_inj {k1 k2 : Block} {a b : List UInt8} (hlength : a.length = b.length)
    (hle : a.length ≤ 16) (h : finalBlock k1 k2 a = finalBlock k1 k2 b) : a = b := by
  unfold finalBlock at h
  rw [hlength] at h
  split at h
  · exact blockOf_inj hlength hle (blockXor_cancels.right k1 h)
  · have hpadded : a ++ [0x80] = b ++ [0x80] := by
      refine blockOf_inj ?_ ?_ (blockXor_cancels.right k2 h)
      · rw [List.length_append, List.length_append, hlength]
      · rw [List.length_append, List.length_singleton]
        omega
    exact List.append_cancel_right hpadded

/-- Two messages of one length that differ, and within the 16 bytes of block `i` only. -/
structure DifferInBlock (i : Nat) (a b : List UInt8) : Prop where
  length_eq : a.length = b.length
  ne : a ≠ b
  within : ∀ j, a[j]? ≠ b[j]? → 16 * i ≤ j ∧ j < 16 * i + 16

theorem DifferInBlock.drop {i : Nat} {a b : List UInt8} (h : DifferInBlock (i + 1) a b) :
    a.take 16 = b.take 16 ∧ DifferInBlock i (a.drop 16) (b.drop 16) := by
  have hfirst : a.take 16 = b.take 16 := by
    apply List.ext_getElem?
    intro j
    rw [List.getElem?_take, List.getElem?_take]
    split
    · by_contra hdiff
      have hin := h.within j hdiff
      omega
    · rfl
  refine ⟨hfirst, ?_, ?_, ?_⟩
  · rw [List.length_drop, List.length_drop, h.length_eq]
  · intro hrest
    apply h.ne
    rw [← List.take_append_drop 16 a, ← List.take_append_drop 16 b, hfirst, hrest]
  · intro j hdiff
    rw [List.getElem?_drop, List.getElem?_drop] at hdiff
    have hin := h.within _ hdiff
    omega

theorem DifferInBlock.first {a b : List UInt8} (h : DifferInBlock 0 a b) :
    a.take 16 ≠ b.take 16 ∧ a.drop 16 = b.drop 16 := by
  have hrest : a.drop 16 = b.drop 16 := by
    apply List.ext_getElem?
    intro j
    rw [List.getElem?_drop, List.getElem?_drop]
    by_contra hdiff
    have hin := h.within _ hdiff
    omega
  refine ⟨fun hfirst => h.ne ?_, hrest⟩
  rw [← List.take_append_drop 16 a, ← List.take_append_drop 16 b, hfirst, hrest]

/-- The chains of such messages run over the same blocks but for one. -/
theorem DifferInBlock.macBlocks {i : Nat} {a b : List UInt8} (h : DifferInBlock i a b) (k1 k2 : Block) :
    ∃ before after block block', block ≠ block' ∧
      Rfc4493.macBlocks k1 k2 a = before ++ block :: after ∧
      Rfc4493.macBlocks k1 k2 b = before ++ block' :: after := by
  induction i generalizing a b with
  | zero =>
    by_cases hshort : a.length ≤ 16
    · rw [macBlocks_short k1 k2 hshort, macBlocks_short k1 k2 (h.length_eq ▸ hshort)]
      refine ⟨[], [], _, _, fun heq => h.ne (finalBlock_inj h.length_eq hshort heq), rfl, rfl⟩
    · obtain ⟨hfirst, hrest⟩ := h.first
      have hlong : ¬ b.length ≤ 16 := h.length_eq ▸ hshort
      rw [macBlocks_long k1 k2 hshort, macBlocks_long k1 k2 hlong, hrest]
      refine ⟨[], _, _, _, fun heq => hfirst (blockOf_inj ?_ ?_ heq), rfl, rfl⟩
      · rw [List.length_take, List.length_take, h.length_eq]
      · exact List.length_take_le _ _
  | succ i ih =>
    have hlong : ¬ a.length ≤ 16 := by
      intro hshort
      apply h.drop.2.ne
      rw [List.drop_eq_nil_of_le hshort, List.drop_eq_nil_of_le (h.length_eq ▸ hshort)]
    obtain ⟨hfirst, hrest⟩ := h.drop
    obtain ⟨before, after, block, block', hne, ha, hb⟩ := ih hrest
    have hlong' : ¬ b.length ≤ 16 := h.length_eq ▸ hlong
    rw [macBlocks_long k1 k2 hlong, macBlocks_long k1 k2 hlong', ha, hb, hfirst]
    exact ⟨_ :: before, after, block, block', hne, rfl, rfl⟩

/-- **One block tells.** Under every key the cipher permutes the blocks, and messages of one length that
differ within one block have different tags. -/
theorem one_block_tags_ne (key : Vector UInt8 16) :
    Function.Bijective (aes128Encrypt (expandKey key.toList)) ∧
      ∀ i a b, DifferInBlock i a b → aesCmac key.toList a ≠ aesCmac key.toList b := by
  refine ⟨aes128Encrypt_bijective _, fun i a b h heq => ?_⟩
  rw [aesCmac_eq_chain, aesCmac_eq_chain] at heq
  dsimp only at heq
  obtain ⟨before, after, block, block', hne, ha, hb⟩ := h.macBlocks
    (deriveSubkey (aes128Encrypt (expandKey key.toList) zero))
    (deriveSubkey (deriveSubkey (aes128Encrypt (expandKey key.toList) zero)))
  rw [ha, hb] at heq
  exact chain_ne (aes128Encrypt_injective _) blockXor_cancels hne zero before after (Except.ok.inj heq)

end Tc8Harness.Autosar.Crypto
