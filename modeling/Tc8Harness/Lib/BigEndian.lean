import Mathlib.Data.Nat.Bitwise
import Mathlib.Tactic.Ring

/-!
# Big-endian byte words

A natural number as exactly `w` bytes, most significant first (`toBE`), and back (`ofBE`). The two
are inverse below `256 ^ w` (`ofBE_toBE`, `toBE_ofBE`), whatever stands after the word
(`ofBE_take_toBE`).
-/

namespace Tc8Harness.BigEndian

/-- The `w` big-endian bytes of `n`; what does not fit `w` bytes is dropped. -/
def toBE : Nat → Nat → List UInt8
  | 0, _ => []
  | w + 1, n => UInt8.ofNat (n / 256 ^ w) :: toBE w n

/-- The natural number with the given big-endian bytes. -/
def ofBE (bs : List UInt8) : Nat := bs.foldl (fun acc b => acc * 256 + b.toNat) 0

@[simp] theorem length_toBE (w n : Nat) : (toBE w n).length = w := by
  induction w with
  | zero => rfl
  | succ w ih => simp [toBE, ih]

private theorem foldl_ofBE (bs : List UInt8) (acc : Nat) :
    bs.foldl (fun acc b => acc * 256 + b.toNat) acc = acc * 256 ^ bs.length + ofBE bs := by
  induction bs generalizing acc with
  | nil => simp [ofBE]
  | cons b bs ih =>
    unfold ofBE
    rw [List.foldl_cons, List.foldl_cons, ih, ih (0 * 256 + b.toNat), List.length_cons, pow_succ]
    ring

theorem ofBE_cons (b : UInt8) (bs : List UInt8) :
    ofBE (b :: bs) = b.toNat * 256 ^ bs.length + ofBE bs := by
  unfold ofBE
  rw [List.foldl_cons, foldl_ofBE]
  simp [ofBE]

theorem ofBE_toBE_mod (w n : Nat) : ofBE (toBE w n) = n % 256 ^ w := by
  induction w with
  | zero => simp [toBE, ofBE, Nat.mod_one]
  | succ w ih =>
    have hbyte : (UInt8.ofNat (n / 256 ^ w)).toNat = n / 256 ^ w % 256 := by
      simp [UInt8.toNat_ofNat']
    rw [toBE, ofBE_cons, ih, length_toBE, hbyte, pow_succ, Nat.mod_mul, Nat.mul_comm, Nat.add_comm]

/-- A word that fits its width reads back as written. -/
theorem ofBE_toBE {w n : Nat} (h : n < 256 ^ w) : ofBE (toBE w n) = n := by
  rw [ofBE_toBE_mod, Nat.mod_eq_of_lt h]

/-- Reading the first `w` bytes of a buffer that starts with a word gives the word. -/
theorem ofBE_take_toBE {w n : Nat} (h : n < 256 ^ w) (rest : List UInt8) :
    ofBE ((toBE w n ++ rest).take w) = n := by
  rw [List.take_left' (length_toBE w n), ofBE_toBE h]

theorem ofBE_lt (bs : List UInt8) : ofBE bs < 256 ^ bs.length := by
  induction bs with
  | nil => simp [ofBE]
  | cons b bs ih =>
    have hb : b.toNat + 1 ≤ 256 := b.toNat_lt
    calc ofBE (b :: bs) = b.toNat * 256 ^ bs.length + ofBE bs := ofBE_cons b bs
      _ < (b.toNat + 1) * 256 ^ bs.length := by rw [Nat.add_mul, Nat.one_mul]; omega
      _ ≤ 256 * 256 ^ bs.length := Nat.mul_le_mul_right _ hb
      _ = 256 ^ (b :: bs).length := by rw [List.length_cons, pow_succ, Nat.mul_comm]

/-- What lies above the width is dropped. -/
theorem toBE_mul_add (w k n : Nat) : toBE w (k * 256 ^ w + n) = toBE w n := by
  induction w generalizing k with
  | zero => rfl
  | succ w ih =>
    have hmul : k * 256 ^ (w + 1) = (k * 256) * 256 ^ w := by rw [pow_succ]; ring
    have hbyte : UInt8.ofNat ((k * 256 * 256 ^ w + n) / 256 ^ w) = UInt8.ofNat (n / 256 ^ w) := by
      apply UInt8.toNat_inj.1
      rw [UInt8.toNat_ofNat', UInt8.toNat_ofNat', Nat.add_comm,
        Nat.add_mul_div_right _ _ (Nat.pow_pos (by decide))]
      omega
    rw [toBE, toBE, hmul, hbyte, ih]

/-- The bytes of the number they stand for. -/
theorem toBE_ofBE (bs : List UInt8) : toBE bs.length (ofBE bs) = bs := by
  induction bs with
  | nil => rfl
  | cons b bs ih =>
    have hbyte : (b.toNat * 256 ^ bs.length + ofBE bs) / 256 ^ bs.length = b.toNat := by
      rw [Nat.add_comm, Nat.add_mul_div_right _ _ (Nat.pow_pos (by decide)),
        Nat.div_eq_of_lt (ofBE_lt bs), Nat.zero_add]
    rw [List.length_cons, toBE, ofBE_cons, hbyte, toBE_mul_add, ih, UInt8.ofNat_toNat]

end Tc8Harness.BigEndian
