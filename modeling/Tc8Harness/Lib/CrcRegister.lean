import Mathlib

/-!
# CRC registers

A register of `w` bits that takes a message most significant bit first: each bit is added at the top,
and the register is shifted by one, with the polynomial added when a one falls out. A shift is linear
and, for an odd polynomial, injective. The first `w` bits of a message act as one word added to the
register (`run_eq_iterate`), so messages that differ within `w` consecutive bits leave different
registers (`run_ne_of_burst`).
-/

namespace Tc8Harness.CrcRegister

variable {w : Nat}

/-- One shift of the register. -/
def shift (poly r : BitVec w) : BitVec w := if r.msb then (r <<< 1) ^^^ poly else r <<< 1

/-- A bit at the top of a register. -/
def top (b : Bool) : BitVec w := if b then BitVec.intMin w else 0

def feed (poly r : BitVec w) (b : Bool) : BitVec w := shift poly (r ^^^ top b)

/-- The register after a message. -/
def run (poly r : BitVec w) (bits : List Bool) : BitVec w := bits.foldl (feed poly) r

/-- The message as one word, from the top down. -/
def word : List Bool → BitVec w
  | [] => 0
  | b :: bits => top b ^^^ (word bits >>> 1)

theorem run_append (poly r : BitVec w) (bits bits' : List Bool) :
    run poly r (bits ++ bits') = run poly (run poly r bits) bits' :=
  List.foldl_append ..

/-! ## Shifts -/

theorem shift_xor (poly a b : BitVec w) :
    shift poly (a ^^^ b) = shift poly a ^^^ shift poly b := by
  unfold shift
  rw [BitVec.msb_xor, BitVec.shiftLeft_xor_distrib]
  apply BitVec.eq_of_getLsbD_eq
  intro i hi
  cases a.msb <;> cases b.msb <;>
    simp only [Bool.bne_false, Bool.bne_true, Bool.not_true, Bool.not_false, Bool.false_eq_true,
      if_true, if_false, BitVec.getLsbD_xor] <;>
    cases (a <<< 1).getLsbD i <;> cases (b <<< 1).getLsbD i <;> cases poly.getLsbD i <;> rfl

/-- The bit that falls out comes back in the lowest place. -/
theorem shift_injective {poly : BitVec w} (hodd : poly.getLsbD 0 = true) :
    Function.Injective (shift poly) := by
  intro a b h
  have hlow : ∀ r : BitVec w, (shift poly r).getLsbD 0 = r.msb := by
    intro r
    unfold shift
    cases r.msb <;> simp [hodd]
  have hmsb : a.msb = b.msb := by rw [← hlow a, ← hlow b, h]
  have hshift : a <<< 1 = b <<< 1 := by
    unfold shift at h
    rw [hmsb] at h
    split at h
    · exact (BitVec.xor_left_inj poly).1 h
    · exact h
  apply BitVec.eq_of_getLsbD_eq
  intro i hi
  by_cases hlast : i + 1 < w
  · have hbit : (a <<< 1).getLsbD (i + 1) = (b <<< 1).getLsbD (i + 1) := by rw [hshift]
    rw [BitVec.getLsbD_shiftLeft, BitVec.getLsbD_shiftLeft] at hbit
    simpa only [hlast, Nat.not_lt.2 (Nat.le_add_left 1 i), decide_true, decide_false,
      Bool.true_and, Bool.not_false, Nat.add_sub_cancel] using hbit
  · have hi' : i = w - 1 := by omega
    rw [hi', ← BitVec.msb_eq_getLsbD_last, ← BitVec.msb_eq_getLsbD_last, hmsb]

/-! ## A message of at most `w` bits -/

theorem getMsbD_top {i : Nat} (hi : i < w) (b : Bool) :
    (top b : BitVec w).getMsbD i = (decide (i = 0) && b) := by
  cases b with
  | false => simp [top]
  | true =>
    rw [top, if_pos rfl, BitVec.getMsbD_intMin]
    simp [Nat.zero_lt_of_lt hi]

theorem getMsbD_word (bits : List Bool) {i : Nat} (hi : i < w) :
    (word bits : BitVec w).getMsbD i = bits.getD i false := by
  induction bits generalizing i with
  | nil => simp [word]
  | cons b bits ih =>
    rw [word, BitVec.getMsbD_xor, getMsbD_top hi, BitVec.getMsbD_ushiftRight]
    cases i with
    | zero => simp
    | succ i => simp [ih (Nat.lt_of_succ_lt hi), hi]

theorem word_injective {u v : List Bool} (hlength : u.length = v.length) (hle : u.length ≤ w)
    (h : (word u : BitVec w) = word v) : u = v := by
  refine List.ext_getElem hlength fun i hi hi' => ?_
  have hbit : (word u : BitVec w).getMsbD i = (word v : BitVec w).getMsbD i := by rw [h]
  rw [getMsbD_word u (by omega), getMsbD_word v (by omega), List.getD_eq_getElem _ _ hi,
    List.getD_eq_getElem _ _ hi'] at hbit
  exact hbit

/-- A word with room at the bottom comes back when it is moved down and shifted. -/
theorem shift_word (poly : BitVec w) {bits : List Bool} (hlt : bits.length < w) :
    shift poly (word bits >>> 1) = word bits := by
  have hmsb : (word bits >>> 1 : BitVec w).msb = false := by
    rw [BitVec.msb_ushiftRight]
    simp
  rw [shift, hmsb, if_neg (by decide)]
  apply BitVec.eq_of_getMsbD_eq
  intro i hi
  rw [BitVec.getMsbD_shiftLeft, BitVec.getMsbD_ushiftRight]
  by_cases hlast : i + 1 < w
  · simp [hlast]
  · have hlow : (word bits : BitVec w).getMsbD i = false := by
      rw [getMsbD_word bits hi, List.getD_eq_default _ _ (by omega)]
    rw [hlow]
    simp [hlast]

/-- Feeding at most `w` bits adds them to the register at once, ahead of the shifts. -/
theorem run_eq_iterate (poly : BitVec w) {bits : List Bool} (hle : bits.length ≤ w) (r : BitVec w) :
    run poly r bits = (shift poly)^[bits.length] (r ^^^ word bits) := by
  induction bits generalizing r with
  | nil => simp [run, word]
  | cons b bits ih =>
    have hlt : bits.length < w := hle
    rw [List.length_cons, Function.iterate_succ_apply, word, ← BitVec.xor_assoc, shift_xor,
      shift_word poly hlt]
    exact ih (Nat.le_of_lt hlt) _

/-! ## Bursts -/

section Odd

variable {poly : BitVec w} (hodd : poly.getLsbD 0 = true)

include hodd

theorem run_injective (bits : List Bool) : Function.Injective fun r => run poly r bits := by
  induction bits with
  | nil => exact fun _ _ h => h
  | cons b bits ih =>
    intro r r' h
    have hfeed : feed poly r b = feed poly r' b := ih h
    exact (BitVec.xor_left_inj (top b)).1 (shift_injective hodd hfeed)

/-- **Burst detection.** Two messages that agree but for at most `w` consecutive bits leave different
registers. -/
theorem run_ne_of_burst {u v : List Bool} (hlength : u.length = v.length) (hle : u.length ≤ w)
    (hne : u ≠ v) (r : BitVec w) (before after : List Bool) :
    run poly r (before ++ u ++ after) ≠ run poly r (before ++ v ++ after) := by
  intro h
  rw [run_append, run_append, run_append, run_append] at h
  have hburst : run poly (run poly r before) u = run poly (run poly r before) v :=
    run_injective hodd after h
  have hle' : v.length ≤ w := by omega
  generalize run poly r before = r₁ at hburst
  rw [run_eq_iterate poly hle, run_eq_iterate poly hle', ← hlength] at hburst
  have hword := (shift_injective hodd).iterate u.length hburst
  exact hne (word_injective hlength hle ((BitVec.xor_right_inj _).1 hword))

/-- Burst detection by places: the messages differ, and only from `start` to `start + w`. -/
theorem run_ne_of_within {x y : List Bool} (hlength : x.length = y.length) (hne : x ≠ y)
    {start : Nat} (hwithin : ∀ i, x[i]? ≠ y[i]? → start ≤ i ∧ i < start + w) (r : BitVec w) :
    run poly r x ≠ run poly r y := by
  have hsplit : ∀ z : List Bool, z = z.take start ++ (z.drop start).take w ++ z.drop (start + w) := by
    intro z
    rw [List.append_assoc, ← List.drop_drop, List.take_append_drop, List.take_append_drop]
  have hbefore : x.take start = y.take start := by
    apply List.ext_getElem?
    intro i
    rw [List.getElem?_take, List.getElem?_take]
    split
    · by_contra hdiff
      have := hwithin i hdiff
      omega
    · rfl
  have hafter : x.drop (start + w) = y.drop (start + w) := by
    apply List.ext_getElem?
    intro i
    rw [List.getElem?_drop, List.getElem?_drop]
    by_contra hdiff
    have := hwithin _ hdiff
    omega
  rw [hsplit x, hsplit y, hbefore, hafter]
  apply run_ne_of_burst hodd
  · rw [List.length_take, List.length_take, List.length_drop, List.length_drop, hlength]
  · exact List.length_take_le _ _
  · intro hburst
    apply hne
    rw [hsplit x, hsplit y, hbefore, hafter, hburst]

end Odd

end Tc8Harness.CrcRegister
