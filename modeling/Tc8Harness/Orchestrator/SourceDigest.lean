import Tc8Harness.Lib.BigEndian
import Tc8Harness.Lib.SelfDelimiting

/-!
# The source digest

`digest_of` of `dut/env/orchestrator/src/source_digest.rs`: each file's path, a zero byte, the length and
the contents go through FNV-1a. The loop is written over what takes up a byte, so that the bytes it feeds
(`fedBytes`) are the same loop's with a list in the place of the hash (`feedFiles_eq`).
-/

namespace Tc8Harness.Orchestrator

open BigEndian Encoding

/-- A byte slice; its length is a `usize`. -/
def ByteSlice := { bytes : List UInt8 // bytes.length < 2 ^ 64 }

instance : DecidableEq ByteSlice := inferInstanceAs (DecidableEq { _bytes : List UInt8 // _ })

/-- `str::as_bytes`. -/
def asBytes (s : String) : List UInt8 := s.toUTF8.data.toList

/-- `u64::to_le_bytes`. -/
def toLeBytes (n : Nat) : List UInt8 := (toBE 8 n).reverse

section Feed

variable {α : Type*} (absorb : α → UInt8 → α)

def feed (h : α) (bytes : List UInt8) : α := bytes.foldl absorb h

/-- The loop over the files. -/
def feedFiles : α → List (String × ByteSlice) → α
  | h, [] => h
  | h, (path, contents) :: files =>
    let h := feed absorb h (asBytes path)
    let h := feed absorb h [0]
    let h := feed absorb h (toLeBytes contents.1.length)
    let h := feed absorb h contents.1
    feedFiles h files

end Feed

def fnvOffset : UInt64 := 0xcbf29ce484222325
def fnvPrime : UInt64 := 0x00000100000001b3

def fnvAbsorb (h : UInt64) (b : UInt8) : UInt64 := (h ^^^ b.toUInt64) * fnvPrime

/-- The format `016x`. -/
def hex16 (h : UInt64) : String :=
  let digits := Nat.toDigits 16 h.toNat
  String.ofList (List.replicate (16 - digits.length) '0' ++ digits)

def digestOf (files : List (String × ByteSlice)) : String := hex16 (feedFiles fnvAbsorb fnvOffset files)

/-- What the loop feeds to the hash. -/
def fedBytes (files : List (String × ByteSlice)) : List UInt8 :=
  feedFiles (fun fed b => fed ++ [b]) [] files

/-! ## The bytes of a list of files -/

def fileBytes (file : String × ByteSlice) : List UInt8 :=
  asBytes file.1 ++ [0] ++ (toLeBytes file.2.1.length ++ file.2.1)

theorem feedFiles_flatMap {α : Type*} (absorb : α → UInt8 → α) (h : α)
    (files : List (String × ByteSlice)) :
    feedFiles absorb h files = (files.flatMap fileBytes).foldl absorb h := by
  induction files generalizing h with
  | nil => rfl
  | cons file files ih =>
    obtain ⟨path, contents⟩ := file
    rw [feedFiles, ih, List.flatMap_cons, List.foldl_append, fileBytes, List.foldl_append,
      List.foldl_append, List.foldl_append]
    rfl

theorem fedBytes_eq (files : List (String × ByteSlice)) : fedBytes files = files.flatMap fileBytes := by
  have happend : ∀ (bytes fed : List UInt8), bytes.foldl (fun fed b => fed ++ [b]) fed = fed ++ bytes := by
    intro bytes
    induction bytes with
    | nil => exact fun fed => (List.append_nil fed).symm
    | cons b bytes ih =>
      intro fed
      rw [List.foldl_cons, ih, List.append_assoc]
      rfl
  rw [fedBytes, feedFiles_flatMap, happend, List.nil_append]

/-- The digest is the hash of the bytes that are fed. -/
theorem digestOf_eq (files : List (String × ByteSlice)) :
    digestOf files = hex16 ((fedBytes files).foldl fnvAbsorb fnvOffset) := by
  rw [digestOf, feedFiles_flatMap, fedBytes_eq]

/-! ## Reading the files back -/

theorem or_ne_zero (x y : UInt8) (hy : y ≠ 0) : (0 : UInt8) ≠ x ||| y := by
  intro h
  exact hy (UInt8.or_eq_zero_iff.1 h.symm).2

theorem zero_notMem_utf8EncodeChar {c : Char} (hc : c ≠ '\x00') : 0 ∉ String.utf8EncodeChar c := by
  have hsize := c.utf8Size_pos
  have hle := c.utf8Size_le_four
  rcases (by omega : c.utf8Size = 1 ∨ c.utf8Size = 2 ∨ c.utf8Size = 3 ∨ c.utf8Size = 4) with h | h | h | h
  · rw [String.utf8EncodeChar_eq_singleton h, List.mem_singleton]
    intro hzero
    have hval : c.val.toNat ≤ 127 := UInt32.le_iff_toNat_le.1 (Char.utf8Size_eq_one_iff.1 h)
    have hbyte : c.val.toNat % 256 = 0 := by
      rw [← UInt32.toNat_toUInt8, ← hzero]
      rfl
    refine hc (Char.ext (UInt32.toNat_inj.1 ?_))
    change c.val.toNat = 0
    omega
  · rw [String.utf8EncodeChar_eq_cons_cons h]
    simp [or_ne_zero]
  · rw [String.utf8EncodeChar_eq_cons_cons_cons h]
    simp [or_ne_zero]
  · rw [String.utf8EncodeChar_eq_cons_cons_cons_cons h]
    simp [or_ne_zero]

theorem asBytes_eq (s : String) : asBytes s = s.toList.flatMap String.utf8EncodeChar := by
  rw [asBytes, String.toUTF8_eq_toByteArray, ← String.utf8Encode_toList, List.utf8Encode,
    List.toList_data_toByteArray]

theorem asBytes_inj {s t : String} (h : asBytes s = asBytes t) : s = t := by
  have harray : s.toByteArray = t.toByteArray := ByteArray.ext (Array.toList_inj.1 h)
  exact String.toByteArray_inj.1 harray

/-- A path without NUL has no zero byte. -/
theorem zero_notMem_asBytes {s : String} (hs : '\x00' ∉ s.toList) : 0 ∉ asBytes s := by
  rw [asBytes_eq]
  intro hzero
  obtain ⟨c, hc, hbyte⟩ := List.mem_flatMap.1 hzero
  exact zero_notMem_utf8EncodeChar (fun h => hs (h ▸ hc)) hbyte

theorem toLeBytes_inj {m n : Nat} (hm : m < 2 ^ 64) (hn : n < 2 ^ 64) (h : toLeBytes m = toLeBytes n) :
    m = n := by
  have hwords : toBE 8 m = toBE 8 n := List.reverse_inj.1 h
  rw [← ofBE_toBE (w := 8) hm, ← ofBE_toBE (w := 8) hn, hwords]

/-- The path ends at its zero byte, and the length says where the contents end. -/
theorem selfDelimiting_fileBytes :
    SelfDelimiting (fun file : String × ByteSlice => '\x00' ∉ file.1.toList) fileBytes := by
  have hpath : SelfDelimiting (fun s : String => '\x00' ∉ s.toList) (fun s => asBytes s ++ [0]) := by
    intro s t hs ht u v h
    obtain ⟨hst, huv⟩ := of_terminator 0 (zero_notMem_asBytes hs) (zero_notMem_asBytes ht) u v h
    exact ⟨asBytes_inj hst, huv⟩
  have hlength : SelfDelimiting (· < 2 ^ 64) toLeBytes :=
    of_length (n := 8) (fun m => by rw [toLeBytes, List.length_reverse, length_toBE])
      fun _ _ => toLeBytes_inj
  refine hpath.andThen (fun _ h => h) fun path => ?_
  refine hlength.andThen (k := fun file : String × ByteSlice => file.2.1.length) (fun file _ => file.2.2) fun n => ?_
  intro x y hx hy s t h
  obtain ⟨hcontents, hst⟩ := List.append_inj h (hx.2.trans hy.2.symm)
  exact ⟨Prod.ext (hx.1.2.trans hy.1.2.symm) (Subtype.ext hcontents), hst⟩

/-- **What is hashed tells the files apart**: their paths, their contents and where each one ends. -/
theorem fedBytes_inj {xs ys : List (String × ByteSlice)} (hxs : ∀ file ∈ xs, '\x00' ∉ file.1.toList)
    (hys : ∀ file ∈ ys, '\x00' ∉ file.1.toList) : fedBytes xs = fedBytes ys ↔ xs = ys := by
  have hne : ∀ file, fileBytes file ≠ [] := by
    intro file h
    rw [fileBytes, List.append_assoc] at h
    exact absurd (List.append_eq_nil_iff.1 h).2 (List.cons_ne_nil 0 _)
  refine ⟨fun h => ?_, fun h => by rw [h]⟩
  rw [fedBytes_eq, fedBytes_eq] at h
  exact selfDelimiting_fileBytes.flatMap_inj hne hxs hys h

/-- A byte that moves from one file to the next one changes what is hashed. -/
theorem fedBytes_inj_moved :
    fedBytes [("a.rs", ⟨[1, 2], by decide⟩), ("b.rs", ⟨[3], by decide⟩)] ≠
      fedBytes [("a.rs", ⟨[1], by decide⟩), ("b.rs", ⟨[2, 3], by decide⟩)] := by
  refine mt (fedBytes_inj ?_ ?_).1 ?_
  · decide
  · decide
  · decide

end Tc8Harness.Orchestrator
