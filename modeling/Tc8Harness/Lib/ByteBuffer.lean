import Mathlib.Data.List.Basic
import Mathlib.Tactic.Basic

/-!
# Growable byte buffers

`resize` and an in-place copy, as `std::vector` has them, read through `getD _ 0`. Growing a buffer
with zeros is invisible to such a read (`getD_resize_of_le`), so a write at an offset is seen exactly
at the positions it covers (`getD_writeAt`).
-/

namespace Tc8Harness.ByteBuffer

/-- `vector::resize(n, 0)`: cut at `n`, or fill up with zeros. -/
def resize (buf : List UInt8) (n : Nat) : List UInt8 :=
  buf.take n ++ List.replicate (n - buf.length) 0

/-- Grow the buffer until `data` fits at `offset`, then copy `data` there. -/
def writeAt (buf : List UInt8) (offset : Nat) (data : List UInt8) : List UInt8 :=
  let grown :=
    if buf.length < offset + data.length then resize buf (offset + data.length) else buf
  grown.take offset ++ data ++ grown.drop (offset + data.length)

@[simp] theorem length_resize (buf : List UInt8) (n : Nat) : (resize buf n).length = n := by
  simp only [resize, List.length_append, List.length_take, List.length_replicate]
  omega

/-- Below the new size a resized buffer reads as the old one, zero past its end. -/
theorem getD_resize {buf : List UInt8} {n b : Nat} (hb : b < n) :
    (resize buf n).getD b 0 = buf.getD b 0 := by
  simp only [resize, List.getD_eq_getElem?_getD, List.getElem?_append, List.getElem?_take,
    List.length_take, List.getElem?_replicate]
  by_cases hlt : b < buf.length
  · rw [if_pos (by omega), if_pos hb]
  · rw [if_neg (by omega), List.getElem?_eq_none (by omega : buf.length ≤ b)]
    split <;> rfl

theorem getD_resize_of_le {buf : List UInt8} {n : Nat} (hn : buf.length ≤ n) (b : Nat) :
    (resize buf n).getD b 0 = buf.getD b 0 := by
  by_cases hb : b < n
  · exact getD_resize hb
  · have hlen := length_resize buf n
    rw [List.getD_eq_getElem?_getD, List.getD_eq_getElem?_getD,
      List.getElem?_eq_none (by omega), List.getElem?_eq_none (by omega)]

private theorem length_grown (buf : List UInt8) (n : Nat) :
    (if buf.length < n then resize buf n else buf).length = max buf.length n := by
  split
  · rw [length_resize]
    omega
  · omega

theorem length_writeAt (buf : List UInt8) (offset : Nat) (data : List UInt8) :
    (writeAt buf offset data).length = max buf.length (offset + data.length) := by
  have hlen := length_grown buf (offset + data.length)
  unfold writeAt
  rw [List.length_append, List.length_append, List.length_take, List.length_drop, hlen]
  omega

/-- What is written at the front is what the buffer begins with. -/
theorem take_writeAt_zero (buf data : List UInt8) : (writeAt buf 0 data).take data.length = data := by
  simp only [writeAt, List.take_zero, List.nil_append]
  exact List.take_left

/-- **A write is seen exactly where it lands.** -/
theorem getD_writeAt (buf : List UInt8) (offset : Nat) (data : List UInt8) (b : Nat) :
    (writeAt buf offset data).getD b 0 =
      if offset ≤ b ∧ b < offset + data.length then data.getD (b - offset) 0 else buf.getD b 0 := by
  have hgrown : ∀ b, (if buf.length < offset + data.length then
      resize buf (offset + data.length) else buf).getD b 0 = buf.getD b 0 := by
    intro b
    split
    · exact getD_resize_of_le (by omega) b
    · rfl
  have hlen := length_grown buf (offset + data.length)
  unfold writeAt
  rw [← hgrown b]
  generalize (if buf.length < offset + data.length then
    resize buf (offset + data.length) else buf) = grown at hlen
  simp only [List.getD_eq_getElem?_getD, List.append_assoc, List.getElem?_append, List.length_take,
    List.getElem?_drop]
  have htake : min offset grown.length = offset := by omega
  rw [htake]
  by_cases h1 : b < offset
  · rw [if_pos h1, if_neg (by omega), List.getElem?_take_of_lt h1]
  · by_cases h2 : b - offset < data.length
    · rw [if_neg h1, if_pos h2, if_pos (by omega)]
    · rw [if_neg h1, if_neg h2, if_neg (by omega)]
      congr 2
      omega

/-! ## Slices -/

/-- A slice inside the buffer, read byte by byte. -/
theorem slice_eq_map {buf : List UInt8} {offset n : Nat} (h : offset + n ≤ buf.length) :
    (buf.drop offset).take n = (List.range n).map fun i => buf.getD (offset + i) 0 := by
  apply List.ext_getElem
  · simp only [List.length_take, List.length_drop, List.length_map, List.length_range]
    omega
  · intro i hi _
    have hi : i < n := by
      rw [List.length_take] at hi
      omega
    simp [List.getD_eq_getElem?_getD, List.getElem?_eq_getElem (by omega : offset + i < buf.length)]

/-- A write is read back. -/
theorem slice_writeAt (buf : List UInt8) (offset : Nat) (data : List UInt8) :
    ((writeAt buf offset data).drop offset).take data.length = data := by
  rw [slice_eq_map (by rw [length_writeAt]; omega)]
  apply List.ext_getElem
  · simp
  · intro i _ hi
    rw [List.getElem_map, List.getElem_range, getD_writeAt, if_pos (by omega), Nat.add_sub_cancel_left,
      List.getD_eq_getElem?_getD, List.getElem?_eq_getElem hi, Option.getD_some]

/-- A write beside a slice leaves it. -/
theorem slice_writeAt_of_disjoint {buf data : List UInt8} {offset start n : Nat}
    (h : start + n ≤ buf.length) (hbeside : start + n ≤ offset ∨ offset + data.length ≤ start) :
    ((writeAt buf offset data).drop start).take n = (buf.drop start).take n := by
  rw [slice_eq_map (by rw [length_writeAt]; omega), slice_eq_map h]
  apply List.map_congr_left
  intro i hi
  have hi : i < n := List.mem_range.1 hi
  rw [getD_writeAt, if_neg (by omega)]

end Tc8Harness.ByteBuffer
