import Tc8Harness.Autosar.Fips197
import Tc8Harness.Lib.CbcMac

/-!
# RFC 4493

AES-CMAC as the RFC has it: the subkeys are L doubled once and twice in GF(2^128), the message is cut
into blocks of 16 bytes with the last one masked, padded first where it is not whole, and the tag is the
CBC chain over them. `aesCmac_eq_cmac`: the code's MAC is this one over FIPS-197, for every key and every
message.
-/

namespace Tc8Harness.Autosar.Rfc4493

open CrcRegister Crypto CbcMac
open Fips197 (byteOf_get byteOf_ofFn byteOf_set_self byteOf_set_ne)

/-! ## Blocks as elements of GF(2^128) -/

/-- A block as one word, its first byte on top. -/
def blockWord (b : Block) : BitVec 128 :=
  BitVec.ofFnBE fun i => (byteOf b (i / 8)).toBitVec.getMsbD (i % 8)

/-- x^128 + x^7 + x^2 + x + 1 without its leading term. -/
def kCmacPoly : BitVec 128 := 0x87

noncomputable def blockElem (b : Block) : AdjoinRoot (modulus kCmacPoly) :=
  element kCmacPoly (blockWord b)

theorem getMsbD_blockWord (b : Block) {i : Nat} (hi : i < 128) :
    (blockWord b).getMsbD i = (byteOf b (i / 8)).toBitVec.getMsbD (i % 8) := by
  rw [blockWord, BitVec.getMsbD_ofFnBE, dif_pos hi]

theorem byteOf_ext {a b : Block} (h : ∀ i < 16, byteOf a i = byteOf b i) : a = b := by
  apply Vector.ext
  intro i hi
  have hbyte := h i hi
  rwa [byteOf, byteOf, Vector.getElem?_eq_getElem hi, Vector.getElem?_eq_getElem hi,
    Option.getD_some, Option.getD_some] at hbyte

theorem blockWord_bijective : Function.Bijective blockWord := by
  constructor
  · intro a b h
    apply byteOf_ext
    intro i hi
    apply UInt8.toBitVec_inj.mp
    apply BitVec.eq_of_getMsbD_eq
    intro k hk
    have hbit : (blockWord a).getMsbD (8 * i + k) = (blockWord b).getMsbD (8 * i + k) := by rw [h]
    rw [getMsbD_blockWord a (by omega), getMsbD_blockWord b (by omega)] at hbit
    have hdiv : (8 * i + k) / 8 = i := by omega
    have hmod : (8 * i + k) % 8 = k := by omega
    rwa [hdiv, hmod] at hbit
  · intro r
    let b : Block := Vector.ofFn fun i => ⟨BitVec.ofFnBE fun k : Fin 8 => r.getMsbD (8 * i + k)⟩
    refine ⟨b, BitVec.eq_of_getMsbD_eq fun i hi => ?_⟩
    have hindex : 8 * (i / 8) + i % 8 = i := by omega
    rw [getMsbD_blockWord b hi, byteOf_ofFn _ (by omega)]
    dsimp only
    rw [BitVec.getMsbD_ofFnBE, dif_pos (Nat.mod_lt i (by decide))]
    dsimp only
    rw [hindex]

theorem blockElem_bijective : Function.Bijective blockElem :=
  (element_bijective kCmacPoly).comp blockWord_bijective

/-- Multiplication by x in GF(2^128). -/
noncomputable def double (b : Block) : Block :=
  Function.surjInv blockElem_bijective.2 (AdjoinRoot.root (modulus kCmacPoly) * blockElem b)

/-! ## Subkeys -/

/-- The top bit of a byte, as a carry. -/
def carry (b : UInt8) : UInt8 := if b &&& 0x80 != 0 then 1 else 0

theorem shiftLeft_loop (input : Block) {n : Nat} (hn : n ≤ 16) (acc : Block × UInt8) {j : Nat} :
    byteOf ((List.range n).reverse.foldl (shiftLeftByte input) acc).1 j =
      if j < n then (byteOf input j <<< 1) ||| (if j + 1 = n then acc.2 else carry (byteOf input (j + 1)))
      else byteOf acc.1 j := by
  induction n generalizing acc with
  | zero => rfl
  | succ n ih =>
    rw [List.range_succ, List.reverse_append, List.reverse_singleton, List.singleton_append,
      List.foldl_cons, ih (by omega)]
    rcases Nat.lt_trichotomy j n with hlt | rfl | hgt
    · rw [if_pos hlt, if_pos (Nat.lt_succ_of_lt hlt), if_neg (by omega : ¬ j + 1 = n + 1)]
      by_cases hlast : j + 1 = n
      · rw [if_pos hlast, hlast]
        rfl
      · rw [if_neg hlast]
    · rw [if_neg (Nat.lt_irrefl j), if_pos (Nat.lt_succ_self j), if_pos rfl, shiftLeftByte,
        byteOf_set_self _ (by omega)]
    · rw [if_neg (by omega), if_neg (by omega), shiftLeftByte, byteOf_set_ne _ (by omega)]

/-- Each byte takes the top bit of the byte below. -/
theorem byteOf_shiftLeftOne (input : Block) {j : Nat} (hj : j < 16) :
    byteOf (shiftLeftOne input) j =
      (byteOf input j <<< 1) ||| (if j + 1 = 16 then 0 else carry (byteOf input (j + 1))) := by
  rw [shiftLeftOne, shiftLeft_loop input (Nat.le_refl 16), if_pos hj]

/-- The bits of a shifted byte with a carry. -/
theorem getMsbD_shiftLeft_or (b c : UInt8) {k : Nat} (hk : k < 8) :
    ((b <<< 1) ||| carry c).toBitVec.getMsbD k =
      if k = 7 then c.toBitVec.getMsbD 0 else b.toBitVec.getMsbD (k + 1) := by
  have hcarry : (carry c).toBitVec.getMsbD k = (decide (k = 7) && c.toBitVec.getMsbD 0) := by
    have htop : c.toBitVec.msb = c.toBitVec.getMsbD 0 := rfl
    rw [carry, and_0x80_bne, htop]
    cases c.toBitVec.getMsbD 0 with
    | false => simp
    | true =>
      have hone : ∀ k < 8, (1 : UInt8).toBitVec.getMsbD k = decide (k = 7) := by decide
      rw [if_pos rfl, hone k hk, Bool.and_true]
  have hshift : (b <<< 1).toBitVec.getMsbD k = b.toBitVec.getMsbD (k + 1) :=
    BitVec.getMsbD_shiftLeft b.toBitVec 1
  rw [UInt8.toBitVec_or, BitVec.getMsbD_or, hcarry, hshift]
  by_cases hlast : k = 7
  · rw [if_pos hlast, decide_eq_true hlast, BitVec.getMsbD_of_ge _ _ (by omega), Bool.false_or,
      Bool.true_and]
  · rw [if_neg hlast, decide_eq_false hlast, Bool.false_and, Bool.or_false]

theorem blockWord_shiftLeftOne (input : Block) : blockWord (shiftLeftOne input) = blockWord input <<< 1 := by
  apply BitVec.eq_of_getMsbD_eq
  intro i hi
  have hzero : (0 : UInt8) = carry 0 := by decide
  rw [getMsbD_blockWord _ hi, byteOf_shiftLeftOne _ (by omega), BitVec.getMsbD_shiftLeft]
  by_cases hlast : i / 8 + 1 = 16
  · rw [if_pos hlast, hzero, getMsbD_shiftLeft_or _ _ (Nat.mod_lt i (by decide))]
    by_cases hbit : i % 8 = 7
    · have hend : 128 ≤ i + 1 := by omega
      rw [if_pos hbit, BitVec.getMsbD_of_ge (blockWord input) _ hend]
      rfl
    · have hnext : (i + 1) / 8 = i / 8 ∧ (i + 1) % 8 = i % 8 + 1 := by omega
      rw [if_neg hbit, getMsbD_blockWord _ (by omega), hnext.1, hnext.2]
  · rw [if_neg hlast, getMsbD_shiftLeft_or _ _ (Nat.mod_lt i (by decide)),
      getMsbD_blockWord _ (by omega)]
    by_cases hbit : i % 8 = 7
    · have hnext : (i + 1) / 8 = i / 8 + 1 ∧ (i + 1) % 8 = 0 := by omega
      rw [if_pos hbit, hnext.1, hnext.2]
    · have hnext : (i + 1) / 8 = i / 8 ∧ (i + 1) % 8 = i % 8 + 1 := by omega
      rw [if_neg hbit, hnext.1, hnext.2]

theorem blockWord_xor_low (out : Block) :
    blockWord (out.setIfInBounds 15 (byteOf out 15 ^^^ 0x87)) = blockWord out ^^^ kCmacPoly := by
  have hpoly : ∀ i < 128, kCmacPoly.getMsbD i =
      (decide (i / 8 = 15) && (0x87 : UInt8).toBitVec.getMsbD (i % 8)) := by decide
  apply BitVec.eq_of_getMsbD_eq
  intro i hi
  rw [getMsbD_blockWord _ hi, BitVec.getMsbD_xor, getMsbD_blockWord _ hi, hpoly i hi]
  by_cases hlast : i / 8 = 15
  · rw [hlast, byteOf_set_self _ (by decide), UInt8.toBitVec_xor, BitVec.getMsbD_xor, decide_eq_true rfl,
      Bool.true_and]
  · rw [byteOf_set_ne _ (Ne.symm hlast), decide_eq_false hlast, Bool.false_and, Bool.xor_false]

theorem blockWord_deriveSubkey (input : Block) :
    blockWord (deriveSubkey input) = shift kCmacPoly (blockWord input) := by
  have hmsb : (byteOf input 0 &&& 0x80 != 0) = (blockWord input).msb := by
    have htop : (blockWord input).getMsbD 0 = (byteOf input 0).toBitVec.getMsbD 0 :=
      getMsbD_blockWord input (by decide)
    rw [and_0x80_bne]
    exact htop.symm
  unfold deriveSubkey shift
  dsimp only
  rw [hmsb]
  split
  · rw [blockWord_xor_low, blockWord_shiftLeftOne]
  · exact blockWord_shiftLeftOne input

/-- A derived subkey is the doubled block. -/
theorem deriveSubkey_eq_double (input : Block) : deriveSubkey input = double input := by
  apply blockElem_bijective.1
  rw [double, Function.surjInv_eq blockElem_bijective.2, blockElem, blockWord_deriveSubkey,
    element_shift]
  rfl

/-! ## The MAC -/

def zero : Block := Vector.replicate 16 0

def blockXor (a b : Block) : Block := Vector.ofFn fun i => a.get i ^^^ b.get i

/-- The first 16 bytes, with zeros behind them where there are fewer. -/
def blockOf (bytes : List UInt8) : Block := Vector.ofFn fun j => bytes.getD j 0

/-- The last block: a whole one is masked by K1, any other is padded by a one bit and zeros and masked
by K2. -/
def finalBlock (k1 k2 : Block) (last : List UInt8) : Block :=
  if last.length = 16 then blockXor (blockOf last) k1 else blockXor (blockOf (last ++ [0x80])) k2

/-- The blocks the chain runs over. -/
def macBlocks (k1 k2 : Block) (msg : List UInt8) : List Block :=
  if msg.length ≤ 16 then [finalBlock k1 k2 msg]
  else blockOf (msg.take 16) :: macBlocks k1 k2 (msg.drop 16)
termination_by msg.length
decreasing_by
  rw [List.length_drop]
  omega

theorem macBlocks_short (k1 k2 : Block) {msg : List UInt8} (h : msg.length ≤ 16) :
    macBlocks k1 k2 msg = [finalBlock k1 k2 msg] := by
  rw [macBlocks, if_pos h]

theorem macBlocks_long (k1 k2 : Block) {msg : List UInt8} (h : ¬ msg.length ≤ 16) :
    macBlocks k1 k2 msg = blockOf (msg.take 16) :: macBlocks k1 k2 (msg.drop 16) := by
  rw [macBlocks, if_neg h]

noncomputable def cmac (E : Block → Block) (msg : List UInt8) : Block :=
  let k1 := double (E zero)
  let k2 := double k1
  chain E blockXor zero (macBlocks k1 k2 msg)

/-! ## The code's loop -/

/-- The number of blocks the code works with. -/
def blockCount (length : Nat) : Nat := if length = 0 then 1 else (length + 15) / 16

theorem blockOf_take (bytes : List UInt8) : blockOf (bytes.take 16) = blockOf bytes := by
  unfold blockOf
  congr 1
  funext j
  rw [List.getD_eq_getElem?_getD, List.getD_eq_getElem?_getD, List.getElem?_take, if_pos j.isLt]

theorem macBlocks_eq (k1 k2 : Block) (msg : List UInt8) :
    macBlocks k1 k2 msg = (List.range (blockCount msg.length - 1)).map (fun i => blockOf (msg.drop (i * 16))) ++
      [finalBlock k1 k2 (msg.drop ((blockCount msg.length - 1) * 16))] := by
  induction msg using macBlocks.induct with
  | case1 msg hle =>
    have hcount : blockCount msg.length - 1 = 0 := by
      unfold blockCount
      split
      · rfl
      · omega
    rw [macBlocks_short k1 k2 hle, hcount]
    rfl
  | case2 msg hgt ih =>
    have hcount : blockCount msg.length - 1 = (blockCount (msg.drop 16).length - 1) + 1 := by
      unfold blockCount
      rw [List.length_drop, if_neg (by omega), if_neg (by omega)]
      omega
    rw [macBlocks_long k1 k2 hgt, ih, hcount, blockOf_take, List.range_succ_eq_map, List.map_cons,
      List.map_map, List.cons_append]
    have hdrop : ∀ i, (msg.drop 16).drop (i * 16) = msg.drop ((i + 1) * 16) := by
      intro i
      rw [List.drop_drop, Nat.add_mul, Nat.add_comm]
    simp only [hdrop]
    rfl

theorem getD_append_pad (last : List UInt8) (j : Nat) :
    (last ++ [0x80]).getD j 0 =
      if j < last.length then last.getD j 0 else if j = last.length then 0x80 else 0x00 := by
  rcases Nat.lt_trichotomy j last.length with hlt | rfl | hgt
  · rw [if_pos hlt, List.getD_append _ _ _ _ hlt]
  · rw [if_neg (Nat.lt_irrefl _), if_pos rfl, List.getD_append_right _ _ _ _ (Nat.le_refl _)]
    simp
  · rw [if_neg (by omega), if_neg (by omega), List.getD_eq_default _ _ (by simpa using hgt)]

/-- Step 4 of the code, at the offset of its last block. -/
theorem lastBlock_eq_finalBlock (k1 k2 : Block) (msg : List UInt8) :
    lastBlock k1 k2 msg (msg.length ≠ 0 && msg.length % 16 = 0) ((blockCount msg.length - 1) * 16) =
      finalBlock k1 k2 (msg.drop ((blockCount msg.length - 1) * 16)) := by
  have hdrop : ∀ off j, (msg.drop off).getD j 0 = msg.getD (off + j) 0 := by
    intro off j
    rw [List.getD_eq_getElem?_getD, List.getElem?_drop, ← List.getD_eq_getElem?_getD]
  have hlength : (msg.drop ((blockCount msg.length - 1) * 16)).length =
      if msg.length ≠ 0 ∧ msg.length % 16 = 0 then 16 else msg.length % 16 := by
    rw [List.length_drop]
    unfold blockCount
    split <;> split <;> omega
  unfold lastBlock finalBlock
  by_cases hwhole : msg.length ≠ 0 ∧ msg.length % 16 = 0
  · rw [if_pos hwhole] at hlength
    rw [if_pos hlength, if_pos (by simpa using hwhole)]
    apply byteOf_ext
    intro j hj
    rw [byteOf_ofFn _ hj, blockXor, byteOf_ofFn _ hj, ← byteOf_get (blockOf _), blockOf, byteOf_ofFn _ hj]
    dsimp only
    rw [hdrop]
  · have hlt : msg.length % 16 < 16 := Nat.mod_lt _ (by decide)
    rw [if_neg hwhole] at hlength
    rw [if_neg (hlength.trans_lt hlt).ne, if_neg (by simpa using hwhole)]
    apply byteOf_ext
    intro j hj
    dsimp only
    rw [byteOf_ofFn _ hj, blockXor, byteOf_ofFn _ hj, ← byteOf_get (blockOf _), blockOf, byteOf_ofFn _ hj]
    dsimp only
    rw [getD_append_pad, hlength, hdrop]

theorem chain_range (E : Block → Block) (msg : List UInt8) (x : Block) (n : Nat) :
    (List.range n).foldl (fun x i => E (Vector.ofFn fun j => x.get j ^^^ msg.getD (i * 16 + j) 0)) x =
      chain E blockXor x ((List.range n).map fun i => blockOf (msg.drop (i * 16))) := by
  have hsum : ∀ (x : Block) (i : Nat), (Vector.ofFn fun j => x.get j ^^^ msg.getD (i * 16 + j) 0) =
      blockXor x (blockOf (msg.drop (i * 16))) := by
    intro x i
    apply byteOf_ext
    intro j hj
    rw [byteOf_ofFn _ hj, blockXor, byteOf_ofFn _ hj, ← byteOf_get (blockOf _), blockOf,
      byteOf_ofFn _ hj]
    dsimp only
    rw [List.getD_eq_getElem?_getD, List.getD_eq_getElem?_getD, List.getElem?_drop]
  simp only [chain, List.foldl_map, hsum]

/-- What `aesCmac` computes, for the code's own cipher and subkeys. -/
theorem aesCmac_eq_chain (key : Vector UInt8 16) (msg : List UInt8) :
    aesCmac key.toList msg =
      let E := aes128Encrypt (expandKey key.toList)
      let k1 := deriveSubkey (E zero)
      .ok (chain E blockXor zero (macBlocks k1 (deriveSubkey k1) msg)) := by
  have hcount : (if msg.length = 0 then 1 else (msg.length + 15) / 16) = blockCount msg.length := rfl
  unfold aesCmac
  rw [if_neg (by simp)]
  dsimp only
  rw [hcount, lastBlock_eq_finalBlock, chain_range, macBlocks_eq, chain_append]
  rfl

/-- **AES-CMAC.** For every key and every message the code returns the tag of RFC 4493 over the cipher of
FIPS-197. -/
theorem aesCmac_eq_cmac (key : Vector UInt8 16) (msg : List UInt8) :
    aesCmac key.toList msg = .ok (cmac (Fips197.cipher key.toList) msg) := by
  have hcipher : aes128Encrypt (expandKey key.toList) = Fips197.cipher key.toList :=
    funext (Fips197.aes128Encrypt_eq_cipher key.toList)
  rw [aesCmac_eq_chain, hcipher]
  dsimp only
  rw [deriveSubkey_eq_double, deriveSubkey_eq_double]
  rfl

end Tc8Harness.Autosar.Rfc4493
