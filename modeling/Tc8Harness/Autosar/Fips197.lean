import Tc8Harness.Autosar.AesCmac
import Tc8Harness.Autosar.Crc
import Tc8Harness.Lib.BinaryPoly

/-!
# FIPS-197 by its algebra

AES-128 as the standard defines it over GF(2^8), the polynomials over GF(2) modulo 0x11b: the S-box is an
affine map of the inverse, MixColumns multiplies each column by 03 x^3 + 01 x^2 + 01 x + 02 modulo
x^4 + 1, and the round constants are the powers of x. `aes128Encrypt_eq_cipher`: the code's cipher, with
its table, its `xtime` and its column-major indices, is this one.
-/

namespace Tc8Harness.Autosar.Fips197

open CrcRegister Crypto Polynomial

/-! ## The field -/

/-- 0x11b without its leading term. -/
def kAesPoly : BitVec 8 := 0x1B

abbrev GF256 := AdjoinRoot (modulus kAesPoly)

/-- The element a byte stands for. -/
noncomputable def elem (b : UInt8) : GF256 := element kAesPoly b.toBitVec

theorem elem_bijective : Function.Bijective elem := by
  constructor
  · intro a b h
    exact UInt8.toBitVec_inj.mp ((element_bijective kAesPoly).1 h)
  · intro e
    obtain ⟨r, hr⟩ := (element_bijective kAesPoly).2 e
    exact ⟨⟨r⟩, hr⟩

/-- The byte that stands for an element. -/
noncomputable def byte (e : GF256) : UInt8 := Function.surjInv elem_bijective.2 e

@[simp] theorem elem_byte (e : GF256) : elem (byte e) = e := Function.surjInv_eq elem_bijective.2 e

@[simp] theorem byte_elem (b : UInt8) : byte (elem b) = b := elem_bijective.1 (elem_byte (elem b))

theorem elem_xor (a b : UInt8) : elem (a ^^^ b) = elem a + elem b := element_xor kAesPoly _ _

theorem elem_zero : elem 0 = 0 := element_zero kAesPoly

theorem elem_one : elem 1 = 1 := element_one kAesPoly

/-- The element x. -/
noncomputable def x : GF256 := AdjoinRoot.root (modulus kAesPoly)

theorem elem_xtime (a : UInt8) : elem (xtime a) = x * elem a := by
  have hshift : (xtime a).toBitVec = shift kAesPoly a.toBitVec := by
    rw [xtime, shift, and_0x80_bne]
    split
    · rfl
    · rw [UInt8.xor_zero]
      rfl
  rw [elem, hshift, element_shift]
  rfl

theorem elem_two : elem 2 = x := by
  have htwo : (2 : UInt8) = xtime 1 := by decide
  rw [htwo, elem_xtime, elem_one, mul_one]

theorem elem_three : elem 3 = x + 1 := by
  have hthree : (3 : UInt8) = 2 ^^^ 1 := by decide
  rw [hthree, elem_xor, elem_two, elem_one]

instance : Nontrivial GF256 := by
  refine ⟨elem 1, elem 0, fun h => ?_⟩
  exact absurd (elem_bijective.1 h) (by decide)

instance : CharP GF256 2 := by
  have htwo : (2 : GF256) = 0 := by
    have h : elem 1 + elem 1 = 0 := by
      rw [← elem_xor, UInt8.xor_self, elem_zero]
    rwa [elem_one, one_add_one_eq_two] at h
  exact CharTwo.of_one_ne_zero_of_two_eq_zero one_ne_zero htwo

/-! ## The S-box -/

/-- The affine map of the S-box: bit `i` is the sum of the bits `i`, `i + 4`, `i + 5`, `i + 6` and `i + 7`,
modulo 8, and of bit `i` of 0x63. -/
def affine (b : UInt8) : UInt8 :=
  let bit (i : Nat) := b.toBitVec.getLsbD (i % 8)
  ⟨BitVec.ofFnLE fun i : Fin 8 =>
    bit i ^^ bit (i + 4) ^^ bit (i + 5) ^^ bit (i + 6) ^^ bit (i + 7) ^^ (0x63 : BitVec 8).getLsbD i⟩

/-- The S-box: the affine map of the inverse, where 0 is its own. -/
noncomputable def sbox (b : UInt8) : UInt8 := affine (byte (Ring.inverse (elem b)))

/-- The affine map backwards. -/
def unaffine (b : UInt8) : UInt8 :=
  let bit (i : Nat) := b.toBitVec.getLsbD (i % 8)
  ⟨BitVec.ofFnLE fun i : Fin 8 => bit (i + 2) ^^ bit (i + 5) ^^ bit (i + 7) ^^ (0x05 : BitVec 8).getLsbD i⟩

/-- The inverse of a byte, as the table has it. -/
def invByte (b : UInt8) : UInt8 := unaffine (subByte b)

/-- What every entry of the table says: it is the affine map of a byte, and that byte is an inverse. -/
theorem subByte_table : ∀ n < 256, affine (invByte (.ofNat n)) = subByte (.ofNat n) ∧
    (mul kAesPoly (UInt8.ofNat n).toBitVec (invByte (.ofNat n)).toBitVec = 1 ∨
      UInt8.ofNat n = 0 ∧ invByte (.ofNat n) = 0) := by
  decide +kernel

theorem affine_invByte (b : UInt8) : affine (invByte b) = subByte b := by
  have h := (subByte_table b.toNat b.toNat_lt).1
  rwa [UInt8.ofNat_toNat] at h

theorem elem_mul_invByte {b : UInt8} (hb : b ≠ 0) : elem b * elem (invByte b) = 1 := by
  have h := (subByte_table b.toNat b.toNat_lt).2
  rw [UInt8.ofNat_toNat] at h
  rcases h with hmul | ⟨hzero, -⟩
  · rw [elem, elem, ← element_mul, hmul]
    exact element_one kAesPoly
  · exact absurd hzero hb

theorem inverse_elem (b : UInt8) : Ring.inverse (elem b) = elem (invByte b) := by
  by_cases hb : b = 0
  · have hzero : invByte 0 = 0 := by decide +kernel
    rw [hb, hzero, elem_zero, Ring.inverse_zero]
  · have hmul := elem_mul_invByte hb
    exact Ring.inverse_unit ⟨elem b, elem (invByte b), hmul, (mul_comm _ _).trans hmul⟩

/-- The table is the S-box. -/
theorem subByte_eq_sbox (b : UInt8) : subByte b = sbox b := by
  rw [sbox, inverse_elem, byte_elem, affine_invByte]

/-! ## The cipher -/

/-- The state by rows and columns. -/
abbrev State := Fin 4 → Fin 4 → UInt8

def State.ofBlock (input : Block) : State := fun r c => byteOf input (r + 4 * c)

def State.toBlock (s : State) : Block := Vector.ofFn fun i => s (Fin.ofNat 4 i) (Fin.ofNat 4 (i / 4))

noncomputable def subBytes (s : State) : State := fun r c => sbox (s r c)

def shiftRows (s : State) : State := fun r c => s r (c + r)

/-- A column as a polynomial over GF(2^8). -/
noncomputable def columnPoly (column : Fin 4 → UInt8) : GF256[X] :=
  ∑ r : Fin 4, C (elem (column r)) * X ^ r.val

/-- 03 x^3 + 01 x^2 + 01 x + 02. -/
noncomputable def mixPoly : GF256[X] := C (elem 3) * X ^ 3 + C (elem 1) * X ^ 2 + C (elem 1) * X + C (elem 2)

noncomputable def mixColumns (s : State) : State := fun r c =>
  byte (((mixPoly * columnPoly fun r => s r c) %ₘ (X ^ 4 + 1)).coeff r)

/-- The round constant: a power of x and three zeros. -/
noncomputable def rcon (j : Nat) : Fin 4 → UInt8 := fun r => if r = 0 then byte (x ^ (j - 1)) else 0

/-- RotWord and SubWord. -/
noncomputable def rotSubWord (w : Fin 4 → UInt8) : Fin 4 → UInt8 := fun r => sbox (w (r + 1))

/-- The key schedule, word by word. -/
noncomputable def keyExpansion (key : List UInt8) : Nat → Fin 4 → UInt8
  | 0 => fun r => key.getD r 0
  | 1 => fun r => key.getD (4 + r) 0
  | 2 => fun r => key.getD (8 + r) 0
  | 3 => fun r => key.getD (12 + r) 0
  | i + 4 => fun r =>
    keyExpansion key i r ^^^
      if (i + 4) % 4 = 0 then rotSubWord (keyExpansion key (i + 3)) r ^^^ rcon ((i + 4) / 4) r
      else keyExpansion key (i + 3) r

/-- Round key `n` is the words `4 n` to `4 n + 3`, a column each. -/
def addRoundKey (w : Nat → Fin 4 → UInt8) (s : State) (n : Nat) : State := fun r c =>
  s r c ^^^ w (4 * n + c) r

noncomputable def round (w : Nat → Fin 4 → UInt8) (s : State) (n : Nat) : State :=
  addRoundKey w (mixColumns (shiftRows (subBytes s))) n

noncomputable def cipher (key : List UInt8) (input : Block) : Block :=
  let w := keyExpansion key
  let s := addRoundKey w (.ofBlock input) 0
  let s := (List.range' 1 9).foldl (round w) s
  State.toBlock (addRoundKey w (shiftRows (subBytes s)) 10)

/-! ## The steps of a round -/

theorem byteOf_get {n : Nat} (v : Vector UInt8 n) (i : Fin n) : byteOf v i = v.get i := by
  rw [byteOf, Vector.getElem?_eq_getElem i.isLt]
  rfl

theorem byteOf_ofFn {n i : Nat} (f : Fin n → UInt8) (hi : i < n) :
    byteOf (Vector.ofFn f) i = f ⟨i, hi⟩ := by
  rw [byteOf, Vector.getElem?_eq_getElem hi, Vector.getElem_ofFn, Option.getD_some]

theorem index_lt (r c : Fin 4) : r.val + 4 * c.val < 16 := by omega

theorem toBlock_ofBlock (input : Block) : State.toBlock (.ofBlock input) = input := by
  apply Vector.ext
  intro i hi
  rw [State.toBlock, Vector.getElem_ofFn, State.ofBlock]
  simp only [Fin.ofNat]
  have hindex : i % 4 + 4 * (i / 4 % 4) = i := by omega
  rw [hindex, byteOf, Vector.getElem?_eq_getElem hi, Option.getD_some]

theorem ofBlock_subBytes (state : Block) :
    State.ofBlock (Crypto.subBytes state) = subBytes (.ofBlock state) := by
  funext r c
  have hlt := index_lt r c
  simp only [State.ofBlock, subBytes, Crypto.subBytes, byteOf]
  rw [Vector.getElem?_map, Vector.getElem?_eq_getElem hlt, Option.map_some, Option.getD_some,
    Option.getD_some, subByte_eq_sbox]

theorem ofBlock_shiftRows (state : Block) :
    State.ofBlock (Crypto.shiftRows state) = shiftRows (.ofBlock state) := by
  funext r c
  have hlt := index_lt r c
  have hrow : (r.val + 4 * c.val) % 4 = r.val := by omega
  have hcol : (r.val + 4 * c.val) / 4 = c.val := by omega
  simp only [State.ofBlock, shiftRows, Crypto.shiftRows]
  rw [byteOf_ofFn _ hlt]
  simp only [hrow, hcol, Fin.val_add]
  split
  · next hzero =>
    have hindex : r.val + 4 * ((c.val + r.val) % 4) = r.val + 4 * c.val := by omega
    rw [← byteOf_get, hindex]
  · rfl

/-- A column as the code mixes it. -/
def mixColumn (a : Fin 4 → UInt8) : Fin 4 → UInt8 :=
  ![xtime (a 0) ^^^ (xtime (a 1) ^^^ a 1) ^^^ a 2 ^^^ a 3,
    a 0 ^^^ xtime (a 1) ^^^ (xtime (a 2) ^^^ a 2) ^^^ a 3,
    a 0 ^^^ a 1 ^^^ xtime (a 2) ^^^ (xtime (a 3) ^^^ a 3),
    (xtime (a 0) ^^^ a 0) ^^^ a 1 ^^^ a 2 ^^^ xtime (a 3)]

theorem degree_columnPoly_lt (a : Fin 4 → UInt8) : (columnPoly a).degree < 4 :=
  degree_sum_fin_lt fun r => elem (a r)

theorem coeff_columnPoly (a : Fin 4 → UInt8) (r : Fin 4) : (columnPoly a).coeff r = elem (a r) := by
  rw [columnPoly, finsetSum_coeff, Finset.sum_eq_single r]
  · rw [coeff_C_mul, coeff_X_pow_self, mul_one]
  · intro b _ hne
    rw [coeff_C_mul, coeff_X_pow, if_neg fun h => hne (Fin.ext h.symm), mul_zero]
  · intro h
    exact absurd (Finset.mem_univ r) h

theorem columnPoly_eq (a : Fin 4 → UInt8) :
    columnPoly a = C (elem (a 0)) + C (elem (a 1)) * X + C (elem (a 2)) * X ^ 2 +
      C (elem (a 3)) * X ^ 3 := by
  simp [columnPoly, Fin.sum_univ_four]

theorem monic_X_four : (X ^ 4 + 1 : GF256[X]).Monic := by
  refine monic_X_pow_add ?_
  rw [degree_one]
  decide

theorem degree_X_four : (X ^ 4 + 1 : GF256[X]).degree = 4 := degree_X_pow_add_C (by decide) 1

/-- Mixing a column is multiplication by the polynomial, with x^4 = 1. -/
theorem mixPoly_mul_columnPoly (a : Fin 4 → UInt8) :
    (mixPoly * columnPoly a) %ₘ (X ^ 4 + 1) = columnPoly (mixColumn a) := by
  let e (r : Fin 4) : GF256[X] := C (elem (a r))
  let q := (C (elem 1) * e 3 + C (elem 1) * e 2 + C (elem 3) * e 1) +
    (C (elem 1) * e 3 + C (elem 3) * e 2) * X + C (elem 3) * e 3 * X ^ 2
  refine (div_modByMonic_unique q _ monic_X_four ⟨?_, ?_⟩).2
  · have htwice : q + q = 0 := CharTwo.add_self_eq_zero q
    rw [columnPoly_eq, columnPoly_eq, mixPoly]
    simp only [mixColumn, elem_xor, elem_xtime, elem_one, elem_two, elem_three, Matrix.cons_val_zero,
      Matrix.cons_val_one, Matrix.cons_val, map_add, map_mul, map_one]
    simp only [q, e, elem_one, elem_three, map_add, map_one] at htwice ⊢
    linear_combination htwice
  · rw [degree_X_four]
    exact degree_columnPoly_lt _

theorem ofBlock_mixColumns (state : Block) :
    State.ofBlock (Crypto.mixColumns state) = mixColumns (.ofBlock state) := by
  funext r c
  have hlt := index_lt r c
  have hrow : (r.val + 4 * c.val) % 4 = r.val := by omega
  have hcol : (r.val + 4 * c.val) / 4 = c.val := by omega
  rw [mixColumns, mixPoly_mul_columnPoly, coeff_columnPoly, byte_elem, State.ofBlock,
    Crypto.mixColumns, byteOf_ofFn _ hlt]
  simp only [hrow, hcol, Nat.add_comm (4 * c.val)]
  fin_cases r <;> rfl

/-! ## The key schedule -/

theorem byteOf_set_self {n i : Nat} (v : Vector UInt8 n) (hi : i < n) (b : UInt8) :
    byteOf (v.setIfInBounds i b) i = b := by
  rw [byteOf, Vector.getElem?_setIfInBounds_self_of_lt hi, Option.getD_some]

theorem byteOf_set_ne {n i j : Nat} (v : Vector UInt8 n) (hne : i ≠ j) (b : UInt8) :
    byteOf (v.setIfInBounds i b) j = byteOf v j := by
  rw [byteOf, Vector.getElem?_setIfInBounds_ne hne, byteOf]

/-- A loop that fills the front of an array. -/
theorem byteOf_foldl_set {n k : Nat} (f : Nat → UInt8) (v : Vector UInt8 n) (hk : k ≤ n) {j : Nat}
    (hj : j < k) :
    byteOf ((List.range k).foldl (fun v i => v.setIfInBounds i (f i)) v) j = f j := by
  induction k with
  | zero => exact absurd hj (Nat.not_lt_zero j)
  | succ k ih =>
    rw [List.range_succ, List.foldl_append, List.foldl_cons, List.foldl_nil]
    by_cases heq : k = j
    · rw [heq, byteOf_set_self _ (by omega)]
    · rw [byteOf_set_ne _ heq]
      exact ih (by omega) (by omega)

/-- The first `n` words of the schedule are in place. -/
def Expanded (key : List UInt8) (rk : RoundKeys) (n : Nat) : Prop :=
  ∀ i < n, ∀ r : Fin 4, byteOf rk (4 * i + r) = keyExpansion key i r

theorem elem_kRcon {j : Nat} (hj : j < 10) : elem (kRcon.getD (j + 1) 0) = x ^ j := by
  induction j with
  | zero => exact elem_one.trans (pow_zero x).symm
  | succ j ih =>
    have hnext : ∀ j < 9, kRcon.getD (j + 1 + 1) 0 = xtime (kRcon.getD (j + 1) 0) := by decide
    rw [hnext j (by omega), elem_xtime, ih (by omega), pow_succ']

theorem rcon_zero {j : Nat} (hj : 1 ≤ j) (hlt : j ≤ 10) : rcon j 0 = kRcon.getD j 0 := by
  obtain ⟨i, rfl⟩ := Nat.exists_eq_add_of_le' hj
  rw [rcon, if_pos rfl, Nat.add_sub_cancel, ← elem_kRcon (by omega), byte_elem]

theorem rcon_ne_zero (j : Nat) {r : Fin 4} (hr : r ≠ 0) : rcon j r = 0 := if_neg hr

/-- A turn of the loop leaves the words before its own alone. -/
theorem byteOf_expandWord_lt (rk : RoundKeys) {word j : Nat} (hj : j < 4 * word) :
    byteOf (expandWord rk word) j = byteOf rk j := by
  unfold expandWord
  dsimp only
  rw [byteOf_set_ne _ (by omega), byteOf_set_ne _ (by omega), byteOf_set_ne _ (by omega),
    byteOf_set_ne _ (by omega)]

/-- What it adds to the word four before. -/
def scheduleWord (rk : RoundKeys) (word : Nat) : Fin 4 → UInt8 := fun r =>
  if word % 4 = 0 then
    subByte (byteOf rk (4 * (word - 1) + (r + 1 : Fin 4))) ^^^
      if r = 0 then kRcon.getD (word / 4) 0 else 0
  else byteOf rk (4 * (word - 1) + r)

theorem byteOf_expandWord (rk : RoundKeys) {word : Nat} (hlow : 4 ≤ word) (hword : word < 44)
    (r : Fin 4) :
    byteOf (expandWord rk word) (4 * word + r) =
      byteOf rk (4 * (word - 4) + r) ^^^ scheduleWord rk word r := by
  unfold expandWord scheduleWord
  by_cases hmod : word % 4 = 0
  · simp only [if_pos hmod]
    fin_cases r <;> simp (disch := omega) only [byteOf_set_ne, byteOf_set_self] <;> simp
  · simp only [if_neg hmod]
    fin_cases r <;> simp (disch := omega) only [byteOf_set_ne, byteOf_set_self]

theorem Expanded.step {key : List UInt8} {rk : RoundKeys} {word : Nat} (h : Expanded key rk word)
    (hlow : 4 ≤ word) (hword : word < 44) : Expanded key (expandWord rk word) (word + 1) := by
  intro i hi r
  rcases Nat.lt_or_eq_of_le (Nat.le_of_lt_succ hi) with hlt | rfl
  · rw [byteOf_expandWord_lt rk (by omega), h i hlt r]
  · obtain ⟨i, rfl⟩ := Nat.exists_eq_add_of_le' hlow
    have hprev : i + 4 - 1 = i + 3 := rfl
    rw [byteOf_expandWord rk hlow hword, Nat.add_sub_cancel, h i (by omega) r, keyExpansion,
      scheduleWord, hprev]
    congr 1
    split
    · rw [h (i + 3) (by omega), subByte_eq_sbox]
      by_cases hr : r = 0
      · subst hr
        rw [rcon_zero (by omega) (by omega), if_pos rfl]
        rfl
      · rw [rcon_ne_zero _ hr, if_neg hr]
        rfl
    · exact h (i + 3) (by omega) r

theorem expanded_run {key : List UInt8} {rk : RoundKeys} (h : Expanded key rk 4) {n : Nat}
    (hn : n ≤ 40) : Expanded key ((List.range' 4 n).foldl expandWord rk) (4 + n) := by
  induction n with
  | zero => exact h
  | succ n ih =>
    rw [List.range'_1_concat, List.foldl_append]
    exact (ih (by omega)).step (by omega) (by omega)

theorem expandKey_expanded (key : List UInt8) : Expanded key (expandKey key) 44 := by
  refine expanded_run ?_ (Nat.le_refl 40)
  intro i hi r
  rw [byteOf_foldl_set _ _ (by decide) (by omega)]
  rcases i with _ | _ | _ | _ | i
  · exact congrArg (key.getD · 0) (by simp)
  · rfl
  · rfl
  · rfl
  · omega

theorem ofBlock_addRoundKey (key : List UInt8) (state : Block) {n : Nat} (hn : n ≤ 10) :
    State.ofBlock (Crypto.addRoundKey state (expandKey key) n) =
      addRoundKey (keyExpansion key) (.ofBlock state) n := by
  funext r c
  have hlt := index_lt r c
  have hindex : n * 16 + (r.val + 4 * c.val) = 4 * (4 * n + c.val) + r.val := by omega
  rw [State.ofBlock, Crypto.addRoundKey, byteOf_ofFn _ hlt, hindex,
    expandKey_expanded key (4 * n + c) (by omega) r, ← byteOf_get]
  rfl

/-! ## The whole cipher -/

theorem ofBlock_rounds (key : List UInt8) {rounds : List Nat} (hrounds : ∀ n ∈ rounds, n ≤ 10)
    (state : Block) :
    State.ofBlock (rounds.foldl (fun state round => Crypto.addRoundKey
        (Crypto.mixColumns (Crypto.shiftRows (Crypto.subBytes state))) (expandKey key) round) state) =
      rounds.foldl (round (keyExpansion key)) (.ofBlock state) := by
  induction rounds generalizing state with
  | nil => rfl
  | cons n rounds ih =>
    rw [List.foldl_cons, List.foldl_cons, ih fun n hn => hrounds n (List.mem_cons_of_mem _ hn),
      ofBlock_addRoundKey key _ (hrounds n List.mem_cons_self), ofBlock_mixColumns,
      ofBlock_shiftRows, ofBlock_subBytes]
    rfl

/-- **The code's cipher is FIPS-197's.** -/
theorem aes128Encrypt_eq_cipher (key : List UInt8) (input : Block) :
    aes128Encrypt (expandKey key) input = cipher key input := by
  have hrounds : ∀ n ∈ List.range' 1 9, n ≤ 10 := by decide
  rw [← toBlock_ofBlock (aes128Encrypt (expandKey key) input), aes128Encrypt,
    ofBlock_addRoundKey key _ (Nat.le_refl 10), ofBlock_shiftRows, ofBlock_subBytes,
    ofBlock_rounds key hrounds, ofBlock_addRoundKey key _ (Nat.zero_le 10)]
  rfl

end Tc8Harness.Autosar.Fips197
