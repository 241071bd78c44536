import Mathlib
import Tc8Harness.Lib.CrcRegister

/-!
# Words as polynomials over GF(2)

Bit `i` of a word is the coefficient of `X ^ i`. Exclusive or is then addition, and one shift of a
register multiplies by `X` modulo the register's polynomial (`toPoly_shift`), so the register after a
message is the remainder of a long division (`toPoly_run`). Modulo its polynomial a word stands for an
element of the quotient ring, every element for exactly one word (`element_bijective`).
-/

namespace Tc8Harness.CrcRegister

open Polynomial

variable {w : Nat}

def bit (b : Bool) : ZMod 2 := if b then 1 else 0

theorem bit_xor (a b : Bool) : bit (a ^^ b) = bit a + bit b := by
  cases a <;> cases b <;> decide

theorem bit_injective : Function.Injective bit := by
  intro a b
  cases a <;> cases b <;> decide

/-- A number of `ZMod 2` is the bit of whether it is one. -/
theorem bit_eq_one (c : ZMod 2) : bit (c == 1) = c := by
  revert c
  decide

theorem add_self (p : (ZMod 2)[X]) : p + p = 0 := CharTwo.add_self_eq_zero p

/-! ## The polynomial of a word -/

noncomputable def toPoly (r : BitVec w) : (ZMod 2)[X] := ofFn w fun i => bit (r.getLsbD i)

theorem coeff_toPoly (r : BitVec w) (i : Nat) : (toPoly r).coeff i = bit (r.getLsbD i) := by
  unfold toPoly
  by_cases hi : i < w
  · rw [ofFn_coeff_eq_val_of_lt _ hi]
  · have hge := Nat.le_of_not_lt hi
    rw [ofFn_coeff_eq_zero_of_ge _ hge, BitVec.getLsbD_of_ge _ _ hge]
    rfl

theorem degree_toPoly_lt (r : BitVec w) : (toPoly r).degree < w := ofFn_degree_lt _

theorem toPoly_injective : Function.Injective (toPoly : BitVec w → (ZMod 2)[X]) := by
  intro a b h
  apply BitVec.eq_of_getLsbD_eq
  intro i hi
  apply bit_injective
  rw [← coeff_toPoly, ← coeff_toPoly, h]

theorem toPoly_xor (a b : BitVec w) : toPoly (a ^^^ b) = toPoly a + toPoly b := by
  ext i
  rw [coeff_add, coeff_toPoly, coeff_toPoly, coeff_toPoly, BitVec.getLsbD_xor, bit_xor]

theorem toPoly_zero : toPoly (0 : BitVec w) = 0 := by
  ext i
  rw [coeff_toPoly, coeff_zero]
  simp [bit]

/-- Every polynomial of low degree is the polynomial of a word. -/
theorem exists_toPoly {p : (ZMod 2)[X]} (h : p.degree < w) : ∃ r : BitVec w, toPoly r = p := by
  refine ⟨BitVec.ofFnLE fun i : Fin w => p.coeff i == 1, ?_⟩
  ext i
  rw [coeff_toPoly]
  by_cases hi : i < w
  · rw [BitVec.getLsbD_ofFnLE, dif_pos hi, bit_eq_one]
  · have hge := Nat.le_of_not_lt hi
    rw [BitVec.getLsbD_of_ge _ _ hge, coeff_eq_zero_of_degree_lt (h.trans_le (by exact_mod_cast hge))]
    rfl

/-! ## The polynomial of a register -/

/-- The polynomial of a register, whose leading term the register leaves out. -/
noncomputable def modulus (poly : BitVec w) : (ZMod 2)[X] := X ^ w + toPoly poly

theorem modulus_monic (poly : BitVec w) : (modulus poly).Monic :=
  monic_X_pow_add (degree_toPoly_lt poly)

theorem degree_modulus (poly : BitVec w) : (modulus poly).degree = w := by
  have hlow : (toPoly poly).degree < (X ^ w : (ZMod 2)[X]).degree := by
    rw [degree_X_pow]
    exact degree_toPoly_lt poly
  rw [modulus, degree_add_eq_left_of_degree_lt hlow, degree_X_pow]

/-- The polynomial of a word is its own remainder. -/
theorem toPoly_modByMonic (poly r : BitVec w) : toPoly r %ₘ modulus poly = toPoly r := by
  rw [modByMonic_eq_self_iff (modulus_monic poly), degree_modulus]
  exact degree_toPoly_lt r

/-- Written out with its leading term, the polynomial is a word of `w + 1` bits. -/
theorem toPoly_cons (poly : BitVec w) : toPoly (poly.cons true) = modulus poly := by
  ext i
  rw [modulus, coeff_add, coeff_X_pow, coeff_toPoly, coeff_toPoly, BitVec.getLsbD_cons]
  by_cases hi : i = w
  · rw [if_pos hi, if_pos hi, hi, BitVec.getLsbD_of_ge _ _ (Nat.le_refl w)]
    decide
  · rw [if_neg hi, if_neg hi, zero_add]

/-- Multiplication by `X` is a shift, and what falls out of the word. -/
theorem X_mul_toPoly (r : BitVec w) :
    X * toPoly r = toPoly (r <<< 1) + C (bit r.msb) * X ^ w := by
  ext i
  rw [coeff_add, coeff_C_mul, coeff_X_pow, coeff_toPoly, BitVec.getLsbD_shiftLeft]
  cases i with
  | zero =>
    rw [coeff_X_mul_zero]
    cases w with
    | zero => simp [bit, BitVec.eq_nil r]
    | succ w => simp [bit]
  | succ i =>
    rw [coeff_X_mul, coeff_toPoly]
    by_cases hlt : i + 1 < w
    · have hne : ¬ i + 1 = w := Nat.ne_of_lt hlt
      simp [hlt, hne]
    · by_cases heq : i + 1 = w
      · have hmsb : r.msb = r.getLsbD i := by
          rw [BitVec.msb_eq_getLsbD_last]
          congr 1
          omega
        simp [heq, hmsb, bit]
      · rw [BitVec.getLsbD_of_ge r i (by omega)]
        simp [hlt, heq, bit]

/-- **One shift of a register** is multiplication by `X` modulo its polynomial. -/
theorem toPoly_shift (poly r : BitVec w) :
    toPoly (shift poly r) = (X * toPoly r) %ₘ modulus poly := by
  have hshift : toPoly (shift poly r) = toPoly (r <<< 1) + C (bit r.msb) * toPoly poly := by
    unfold shift
    cases r.msb with
    | false => simp [bit]
    | true => simp [bit, toPoly_xor]
  refine ((div_modByMonic_unique (C (bit r.msb)) _ (modulus_monic poly) ⟨?_, ?_⟩).2).symm
  · calc toPoly (shift poly r) + modulus poly * C (bit r.msb)
        = toPoly (r <<< 1) + C (bit r.msb) * X ^ w +
            (C (bit r.msb) * toPoly poly + C (bit r.msb) * toPoly poly) := by
          rw [hshift, modulus]
          ring
      _ = X * toPoly r := by rw [add_self, add_zero, X_mul_toPoly]
  · rw [degree_modulus]
    exact degree_toPoly_lt _

/-! ## Long division -/

/-- A message as a polynomial: its first bit is the leading coefficient. -/
noncomputable def messagePoly : List Bool → (ZMod 2)[X]
  | [] => 0
  | b :: bits => C (bit b) * X ^ bits.length + messagePoly bits

/-- What is divided: the message moved up by the width of the register, with the start value added at its
front. -/
noncomputable def dividend (init : BitVec w) (bits : List Bool) : (ZMod 2)[X] :=
  toPoly init * X ^ bits.length + messagePoly bits * X ^ w

theorem toPoly_top (b : Bool) : X * toPoly (top b : BitVec (w + 1)) = C (bit b) * X ^ (w + 1) := by
  cases b with
  | false => simp only [top, Bool.false_eq_true, if_false, toPoly_zero, bit, C_0, mul_zero, zero_mul]
  | true =>
    have hout : BitVec.intMin (w + 1) <<< 1 = 0 := by
      apply BitVec.eq_of_getLsbD_eq
      intro i hi
      rw [BitVec.getLsbD_shiftLeft, BitVec.getLsbD_intMin]
      cases i with
      | zero => simp
      | succ i =>
        have hne : ¬ i = w := by omega
        simp [hne]
    rw [top, if_pos rfl, X_mul_toPoly, hout, toPoly_zero, zero_add, BitVec.msb_intMin]
    simp

/-- A bit that is fed is the next coefficient of the message. -/
theorem toPoly_feed (poly r : BitVec (w + 1)) (b : Bool) :
    toPoly (feed poly r b) = (toPoly r * X + C (bit b) * X ^ (w + 1)) %ₘ modulus poly := by
  rw [feed, toPoly_shift, toPoly_xor, mul_add, toPoly_top, mul_comm X]

/-- A remainder may be taken early. -/
theorem modByMonic_mul_add {g : (ZMod 2)[X]} (hg : g.Monic) (p q r : (ZMod 2)[X]) :
    (p %ₘ g * q + r) %ₘ g = (p * q + r) %ₘ g := by
  apply modByMonic_eq_of_dvd_sub hg
  have hdiff : p %ₘ g * q + r - (p * q + r) = (p %ₘ g - p) * q := by ring
  rw [hdiff]
  exact (dvd_modByMonic_sub p g).mul_right q

/-- **The register after a message** is the remainder of the message and the start value. -/
theorem toPoly_run (poly r : BitVec (w + 1)) (bits : List Bool) :
    toPoly (run poly r bits) = dividend r bits %ₘ modulus poly := by
  induction bits generalizing r with
  | nil =>
    simp [run, dividend, messagePoly, toPoly_modByMonic]
  | cons b bits ih =>
    calc toPoly (run poly r (b :: bits))
        = toPoly (run poly (feed poly r b) bits) := rfl
      _ = dividend (feed poly r b) bits %ₘ modulus poly := ih _
      _ = ((toPoly r * X + C (bit b) * X ^ (w + 1)) * X ^ bits.length +
            messagePoly bits * X ^ (w + 1)) %ₘ modulus poly := by
          rw [dividend, toPoly_feed, modByMonic_mul_add (modulus_monic poly)]
      _ = dividend r (b :: bits) %ₘ modulus poly := by
          rw [dividend, messagePoly, List.length_cons]
          congr 1
          ring

/-! ## Folding the start value into the message -/

theorem messagePoly_append (bits bits' : List Bool) :
    messagePoly (bits ++ bits') = messagePoly bits * X ^ bits'.length + messagePoly bits' := by
  induction bits with
  | nil => simp [messagePoly]
  | cons b bits ih =>
    rw [List.cons_append, messagePoly, messagePoly, ih, List.length_append]
    ring

/-- Turning every bit of a message adds the polynomial of all ones. -/
theorem messagePoly_map_not (bits : List Bool) :
    messagePoly (bits.map not) = toPoly (BitVec.allOnes bits.length) + messagePoly bits := by
  induction bits with
  | nil =>
    rw [List.map_nil, messagePoly, add_zero]
    exact toPoly_zero.symm
  | cons b bits ih =>
    have hones : BitVec.allOnes (bits.length + 1) = (BitVec.allOnes bits.length).cons true := by
      apply BitVec.eq_of_getLsbD_eq
      intro i hi
      rw [BitVec.getLsbD_cons, BitVec.getLsbD_allOnes, BitVec.getLsbD_allOnes, decide_eq_true hi]
      split
      · rfl
      · exact (decide_eq_true (by omega)).symm
    have hbit : C (bit !b) = 1 + C (bit b) := by
      rw [← C_1, ← C_add]
      congr 1
      cases b <;> decide
    rw [List.map_cons, List.length_cons, messagePoly, messagePoly, ih, hones, toPoly_cons, modulus,
      List.length_map, hbit]
    ring

/-- A start value of all ones turns the first `w` bits of a message that has them. -/
theorem dividend_allOnes {bits : List Bool} (h : w ≤ bits.length) :
    dividend (BitVec.allOnes w) bits =
      messagePoly ((bits.take w).map not ++ bits.drop w) * X ^ w := by
  have hsplit : messagePoly bits =
      messagePoly (bits.take w) * X ^ (bits.drop w).length + messagePoly (bits.drop w) := by
    rw [← messagePoly_append, List.take_append_drop]
  have hlength : bits.length = w + (bits.drop w).length := by
    rw [List.length_drop]
    omega
  have htake : (bits.take w).length = w := by rw [List.length_take, Nat.min_eq_left h]
  rw [dividend, messagePoly_append, messagePoly_map_not, htake, hsplit, hlength]
  ring

/-! ## Words as elements -/

/-- The element of the quotient ring that a word stands for. -/
noncomputable def element (poly r : BitVec w) : AdjoinRoot (modulus poly) :=
  AdjoinRoot.mk (modulus poly) (toPoly r)

theorem element_xor (poly a b : BitVec w) :
    element poly (a ^^^ b) = element poly a + element poly b := by
  rw [element, toPoly_xor, map_add]
  rfl

theorem element_zero (poly : BitVec w) : element poly 0 = 0 := by
  rw [element, toPoly_zero, map_zero]

theorem element_one (poly : BitVec (w + 1)) : element poly 1 = 1 := by
  have hone : toPoly (1 : BitVec (w + 1)) = 1 := by
    ext i
    rw [coeff_toPoly, coeff_one]
    change bit ((1#(w + 1)).getLsbD i) = _
    rw [BitVec.getLsbD_one]
    by_cases hi : i = 0
    · simp [hi, bit]
    · simp [hi, bit]
  rw [element, hone, map_one]

theorem element_shift (poly r : BitVec w) :
    element poly (shift poly r) = AdjoinRoot.root (modulus poly) * element poly r := by
  have hmod : AdjoinRoot.mk (modulus poly) (toPoly (shift poly r)) =
      AdjoinRoot.mk (modulus poly) (X * toPoly r) := by
    rw [toPoly_shift, AdjoinRoot.mk_eq_mk]
    exact dvd_modByMonic_sub _ _
  rw [element, hmod, map_mul, AdjoinRoot.mk_X]
  rfl

theorem element_bijective (poly : BitVec w) : Function.Bijective (element poly) := by
  constructor
  · intro a b h
    apply toPoly_injective
    have hmod := modByMonic_eq_of_dvd_sub (modulus_monic poly) (AdjoinRoot.mk_eq_mk.mp h)
    rwa [toPoly_modByMonic, toPoly_modByMonic] at hmod
  · intro e
    obtain ⟨p, rfl⟩ := AdjoinRoot.mk_surjective e
    have hdegree : (p %ₘ modulus poly).degree < w := by
      rw [← degree_modulus poly]
      exact degree_modByMonic_lt p (modulus_monic poly)
    obtain ⟨r, hr⟩ := exists_toPoly hdegree
    refine ⟨r, ?_⟩
    rw [element, hr, AdjoinRoot.mk_eq_mk]
    exact dvd_modByMonic_sub _ _

/-! ## Multiplication -/

/-- The bits of a word, most significant first. -/
def bitsOf (r : BitVec w) : List Bool := (List.range w).map r.getMsbD

theorem coeff_messagePoly (bits : List Bool) (i : Nat) :
    (messagePoly bits).coeff i = bit (bits.reverse.getD i false) := by
  induction bits with
  | nil => simp [messagePoly, bit]
  | cons b bits ih =>
    rw [messagePoly, coeff_add, coeff_C_mul, coeff_X_pow, ih, List.reverse_cons]
    rcases Nat.lt_trichotomy i bits.length with hlt | heq | hgt
    · rw [List.getD_append _ _ _ _ (by rwa [List.length_reverse]), if_neg (Nat.ne_of_lt hlt)]
      ring
    · rw [List.getD_append_right _ _ _ _ (by rw [List.length_reverse]; exact heq.ge),
        List.getD_eq_default _ _ (by rw [List.length_reverse]; exact heq.ge), if_pos heq]
      simp [heq, bit]
    · rw [List.getD_append_right _ _ _ _ (by rw [List.length_reverse]; exact hgt.le),
        List.getD_eq_default _ _ (by rw [List.length_reverse]; exact hgt.le),
        List.getD_eq_default _ _ (by rw [List.length_reverse, List.length_singleton]; omega),
        if_neg (Nat.ne_of_gt hgt)]
      simp [bit]

theorem messagePoly_bitsOf (r : BitVec w) : messagePoly (bitsOf r) = toPoly r := by
  ext i
  rw [coeff_messagePoly, coeff_toPoly]
  congr 1
  by_cases hi : i < w
  · have hlt : i < (bitsOf r).reverse.length := by simpa [bitsOf] using hi
    rw [List.getD_eq_getElem _ _ hlt, List.getElem_reverse]
    simp only [bitsOf, List.getElem_map, List.getElem_range, List.length_map, List.length_range,
      BitVec.getMsbD]
    have hdown : w - 1 - (w - 1 - i) = i := by omega
    have hin : w - 1 - i < w := by omega
    rw [hdown, decide_eq_true hin, Bool.true_and]
  · have hge : (bitsOf r).reverse.length ≤ i := by simpa [bitsOf] using Nat.le_of_not_lt hi
    rw [List.getD_eq_default _ _ hge, BitVec.getLsbD_of_ge _ _ (Nat.le_of_not_lt hi)]

/-- Multiplication in the quotient ring, bit by bit of the second factor. -/
def mul (poly a b : BitVec w) : BitVec w :=
  (bitsOf b).foldl (fun acc b => shift poly acc ^^^ (if b then a else 0)) 0

theorem element_foldl_mul (poly a acc : BitVec w) (bits : List Bool) :
    element poly (bits.foldl (fun acc b => shift poly acc ^^^ (if b then a else 0)) acc) =
      element poly acc * AdjoinRoot.root (modulus poly) ^ bits.length +
        element poly a * AdjoinRoot.mk (modulus poly) (messagePoly bits) := by
  induction bits generalizing acc with
  | nil => simp [messagePoly]
  | cons b bits ih =>
    have hbit : element poly (if b then a else 0) =
        element poly a * AdjoinRoot.mk (modulus poly) (C (bit b)) := by
      cases b with
      | false => simp only [bit, Bool.false_eq_true, if_false, element_zero, map_zero, mul_zero]
      | true => simp [bit]
    rw [List.foldl_cons, ih, element_xor, element_shift, hbit, messagePoly, List.length_cons, map_add,
      map_mul, map_pow, AdjoinRoot.mk_X]
    ring

theorem element_mul (poly a b : BitVec w) :
    element poly (mul poly a b) = element poly a * element poly b := by
  rw [mul, element_foldl_mul, element_zero, zero_mul, zero_add, messagePoly_bitsOf]
  rfl

end Tc8Harness.CrcRegister
