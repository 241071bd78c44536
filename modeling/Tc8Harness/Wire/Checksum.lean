import Mathlib
import Tc8Harness.Someip.Wire

/-!
# The Internet checksum

`src/wire/ip_checksum.cpp` and `src/wire/icmp_echo.cpp`: the one's-complement checksums of the IPv4
header, of ICMP and of UDP, and the echo bodies that carry them. The TCP checksum is with the decoder
that checks it. A sum is a natural number, taken modulo `2 ^ 32` where the source has accumulated it: a
buffer of more than 128 KiB can exceed the 32 bits.
-/

namespace Tc8Harness.Wire

open BigEndian Someip

def inetChecksum (data : List UInt8) : UInt16 := UInt16.ofNat (65535 - fold16 (sum16 data % 2 ^ 32))

def inetChecksumValid (data : List UInt8) : Bool := inetChecksum data == 0

/-- A zero checksum is sent as all ones: zero means that none was computed. -/
def udpChecksum (srcBe dstBe : UInt32) (udp : List UInt8) : UInt16 :=
  let out := UInt16.ofNat (65535 -
    fold16 ((sum16 (bytes32 srcBe) + sum16 (bytes32 dstBe) + 0x11 + udp.length % 65536 + sum16 udp) %
      2 ^ 32))
  if out = 0 then 0xFFFF else out

/-- `udp` has its checksum field zeroed. Both forms of zero are accepted. -/
def udpChecksumValid (srcBe dstBe : UInt32) (udp : List UInt8) (onWire : UInt16) : Bool :=
  let computed := udpChecksum srcBe dstBe udp
  computed == onWire || (computed == 0x0000 && onWire == 0xFFFF) ||
    (computed == 0xFFFF && onWire == 0x0000)

/-! ## The one's-complement sum -/

theorem fold16_le (sum : Nat) : fold16 sum ≤ 65535 := by
  fun_induction fold16 sum with
  | case1 sum h => omega
  | case2 sum h ih => exact ih

/-- The fold keeps the residue: a carry of 65536 counts as one. -/
theorem fold16_mod (sum : Nat) : fold16 sum % 65535 = sum % 65535 := by
  fun_induction fold16 sum with
  | case1 sum h => rfl
  | case2 sum h ih => rw [ih]; omega

theorem fold16_pos {sum : Nat} (h : 0 < sum) : 0 < fold16 sum := by
  fun_induction fold16 sum with
  | case1 sum _ => exact h
  | case2 sum _ ih => exact ih (by omega)

/-- All ones are the sums that vanish modulo 65535, zero itself apart. -/
theorem fold16_eq_iff (sum : Nat) : fold16 sum = 65535 ↔ 0 < sum ∧ sum % 65535 = 0 := by
  have hmod := fold16_mod sum
  constructor
  · intro h
    refine ⟨?_, by omega⟩
    by_contra hsum
    obtain rfl : sum = 0 := by omega
    rw [fold16] at h
    simp at h
  · rintro ⟨hpos, hzero⟩
    have hle := fold16_le sum
    have hpos' := fold16_pos hpos
    omega

/-- The word that completes a sum of words: the one's complement of its fold. -/
def complement (sum : Nat) : Nat := 65535 - fold16 (sum % 2 ^ 32)

theorem complement_lt (sum : Nat) : complement sum < 65536 := by
  rw [complement]
  omega

theorem complement_mod (sum : Nat) : (sum % 2 ^ 32 + complement sum) % 65535 = 0 := by
  have hle := fold16_le (sum % 2 ^ 32)
  have hmod := fold16_mod (sum % 2 ^ 32)
  rw [complement]
  omega

theorem complement_pos (sum : Nat) : 0 < sum % 2 ^ 32 + complement sum := by
  rcases Nat.eq_zero_or_pos (sum % 2 ^ 32) with hzero | hpos
  · have hfold : fold16 0 = 0 := by rw [fold16]; rfl
    rw [complement, hzero, hfold]
    decide
  · omega

/-- The completed sum needs no 33rd bit: a sum that close to `2 ^ 32` is completed to `2 ^ 32 - 1`. -/
theorem complement_no_carry (sum : Nat) : sum % 2 ^ 32 + complement sum < 2 ^ 32 := by
  have hle := fold16_le (sum % 2 ^ 32)
  have hmod := fold16_mod (sum % 2 ^ 32)
  have hlt : sum % 2 ^ 32 < 2 ^ 32 := Nat.mod_lt _ (by decide)
  rcases Nat.eq_zero_or_pos (sum % 2 ^ 32) with hzero | hpos
  · rw [complement, hzero]
    omega
  · have hpos' := fold16_pos hpos
    rw [complement]
    omega

/-- A completed sum folds to all ones. -/
theorem fold16_completed (sum : Nat) : fold16 ((sum + complement sum) % 2 ^ 32) = 65535 := by
  have hsum : (sum + complement sum) % 2 ^ 32 = sum % 2 ^ 32 + complement sum := by
    rw [← Nat.mod_add_mod, Nat.mod_eq_of_lt (complement_no_carry sum)]
  rw [hsum, fold16_eq_iff]
  exact ⟨complement_pos sum, complement_mod sum⟩

/-- A sum whose completing word is off by one does not: the two zeros are further apart than that. -/
theorem fold16_off_by_one {sum word : Nat} (h : word = complement sum + 1 ∨ word + 1 = complement sum) :
    fold16 ((sum + word) % 2 ^ 32) ≠ 65535 := by
  have hpos := complement_pos sum
  have hmod := complement_mod sum
  have hcarry := complement_no_carry sum
  have hsum : (sum + word) % 2 ^ 32 = (sum % 2 ^ 32 + word) % 2 ^ 32 := (Nat.mod_add_mod ..).symm
  rw [hsum, ne_eq, fold16_eq_iff]
  omega

theorem sum16_append {a b : List UInt8} (h : a.length % 2 = 0) :
    sum16 (a ++ b) = sum16 a + sum16 b := by
  fun_induction sum16 a with
  | case1 => simp
  | case2 x => simp at h
  | case3 x y a ih =>
    simp only [List.cons_append, sum16]
    rw [ih (by simp at h; omega)]
    omega

theorem sum16_putBe16 (v : UInt16) : sum16 (putBe16 v) = v.toNat := by
  have hlt := v.toNat_lt
  simp only [putBe16, toBE, sum16, UInt8.toNat_ofNat', pow_one, pow_zero, Nat.div_one]
  omega

/-- The checksum a builder sends: on request with its low bit flipped. -/
def sentChecksum (corrupt : Bool) (csum : UInt16) : UInt16 := if corrupt then csum ^^^ 0x0001 else csum

theorem xor_one_toNat (v : UInt16) :
    (v ^^^ 0x0001).toNat = v.toNat + 1 ∨ (v ^^^ 0x0001).toNat + 1 = v.toNat := by
  rw [UInt16.toNat_xor]
  change v.toNat ^^^ 1 = _ ∨ (v.toNat ^^^ 1) + 1 = _
  rcases Nat.even_or_odd v.toNat with heven | hodd
  · exact .inl (Nat.xor_one_of_even heven)
  · right
    rw [Nat.xor_one_of_odd hodd]
    exact Nat.sub_add_cancel hodd.pos

/-- A sum with the checksum sent for it folds to all ones, unless the checksum is sent wrong. -/
theorem fold16_sent {sum : Nat} {csum : UInt16} (h : csum.toNat = complement sum) (corrupt : Bool) :
    fold16 ((sum + (sentChecksum corrupt csum).toNat) % 2 ^ 32) = 65535 ↔ corrupt = false := by
  cases corrupt with
  | false =>
    refine iff_of_true ?_ rfl
    rw [sentChecksum, if_neg (by decide), h]
    exact fold16_completed sum
  | true =>
    refine iff_of_false ?_ (by decide)
    rw [sentChecksum, if_pos rfl]
    apply fold16_off_by_one
    rw [← h]
    exact xor_one_toNat csum

theorem inetChecksum_toNat (data : List UInt8) : (inetChecksum data).toNat = complement (sum16 data) := by
  rw [inetChecksum, UInt16.toNat_ofNat']
  exact Nat.mod_eq_of_lt (complement_lt _)

theorem inetChecksumValid_iff (data : List UInt8) :
    inetChecksumValid data = true ↔ fold16 (sum16 data % 2 ^ 32) = 65535 := by
  have hle := fold16_le (sum16 data % 2 ^ 32)
  rw [inetChecksumValid, beq_iff_eq, ← UInt16.toNat_inj, inetChecksum_toNat, complement]
  change 65535 - _ = 0 ↔ _
  omega

theorem sum16_word {a : List UInt8} (b : List UInt8) (h : a.length % 2 = 0) (v : UInt16) :
    sum16 (a ++ (putBe16 v ++ b)) = sum16 a + sum16 b + v.toNat := by
  rw [sum16_append h, sum16_append (by rw [length_putBe16]), sum16_putBe16]
  omega

theorem sum16_zeroed {a : List UInt8} (b : List UInt8) (h : a.length % 2 = 0) :
    sum16 (a ++ (putBe16 0 ++ b)) = sum16 a + sum16 b := sum16_word b h 0

/-- **A header is valid exactly when its checksum is not sent wrong**, wherever the field stands on an
even offset. -/
theorem inetChecksumValid_sent {a : List UInt8} (b : List UInt8) (h : a.length % 2 = 0)
    (corrupt : Bool) :
    inetChecksumValid
      (a ++ (putBe16 (sentChecksum corrupt (inetChecksum (a ++ (putBe16 0 ++ b)))) ++ b)) =
      !corrupt := by
  rw [Bool.eq_iff_iff, inetChecksumValid_iff, sum16_word b h, Bool.not_eq_true']
  apply fold16_sent
  rw [inetChecksum_toNat, sum16_zeroed b h]

theorem inetChecksumValid_append {a : List UInt8} (b : List UInt8) (h : a.length % 2 = 0) :
    inetChecksumValid (a ++ (putBe16 (inetChecksum (a ++ (putBe16 0 ++ b))) ++ b)) = true :=
  inetChecksumValid_sent b h false

/-- Two bytes of a buffer overwritten with a word. -/
def writeBe16 (data : List UInt8) (off : Nat) (v : UInt16) : List UInt8 :=
  (data.set off (v >>> 8).toUInt8).set (off + 1) (v &&& 0xFF).toUInt8

theorem putBe16_eq (v : UInt16) : putBe16 v = [(v >>> 8).toUInt8, (v &&& 0xFF).toUInt8] := by
  have hhi : UInt8.ofNat (v.toNat / 256 ^ 1) = (v >>> 8).toUInt8 := by
    apply UInt8.toNat_inj.1
    rw [UInt8.toNat_ofNat', UInt16.toNat_toUInt8, UInt16.toNat_shiftRight]
    change v.toNat / 256 ^ 1 % 2 ^ 8 = v.toNat >>> 8 % 2 ^ 8
    rw [Nat.shiftRight_eq_div_pow, pow_one]
  have hlo : UInt8.ofNat (v.toNat / 256 ^ 0) = (v &&& 0xFF).toUInt8 := by
    apply UInt8.toNat_inj.1
    rw [UInt8.toNat_ofNat', UInt16.toNat_toUInt8, UInt16.toNat_and]
    change v.toNat / 256 ^ 0 % 2 ^ 8 = (v.toNat &&& (2 ^ 8 - 1)) % 2 ^ 8
    rw [Nat.and_two_pow_sub_one_eq_mod, Nat.mod_mod, pow_zero, Nat.div_one]
  rw [putBe16, toBE, toBE, toBE, hhi, hlo]

/-- A word put in the place of another. -/
theorem writeBe16_append (a b : List UInt8) (old v : UInt16) {off : Nat} (h : a.length = off) :
    writeBe16 (a ++ (putBe16 old ++ b)) off v = a ++ (putBe16 v ++ b) := by
  subst h
  rw [writeBe16, putBe16_eq, putBe16_eq, List.set_append_right _ _ (Nat.le_refl _), Nat.sub_self,
    List.set_append_right _ _ (Nat.le_add_right _ 1), Nat.add_sub_cancel_left]
  rfl

/-- `inetChecksumValid_sent` for a checksum written over its placeholder. -/
theorem inetChecksumValid_written {a : List UInt8} (b : List UInt8) {n : Nat} (h : a.length = n)
    (heven : n % 2 = 0) (corrupt : Bool) :
    inetChecksumValid (writeBe16 (a ++ (putBe16 0 ++ b)) n
      (sentChecksum corrupt (inetChecksum (a ++ (putBe16 0 ++ b))))) = !corrupt := by
  rw [writeBe16_append a b 0 _ h]
  exact inetChecksumValid_sent b (by rw [h, heven]) corrupt

def kIcmpTypeEchoRequest : UInt8 := 8
def kIcmpCodeEchoRequest : UInt8 := 0
def kIcmpv6TypeEchoRequest : UInt8 := 128
def kIcmpv6CodeEchoRequest : UInt8 := 0

/-- The echo header with a zero checksum, and the data. -/
def buildEchoFrame (type code : UInt8) (id seq : UInt16) (data : List UInt8) : List UInt8 :=
  [type, code] ++ (putBe16 0x0000 ++ (putBe16 id ++ (putBe16 seq ++ data)))

def buildIcmpEchoRequestBody (id seq : UInt16) (data : List UInt8)
    (typeOverride codeOverride : Option UInt8 := none) (corruptChecksum : Bool := false) :
    List UInt8 :=
  let icmp := buildEchoFrame (typeOverride.getD kIcmpTypeEchoRequest)
    (codeOverride.getD kIcmpCodeEchoRequest) id seq data
  let csum := inetChecksum icmp
  writeBe16 icmp 2 (if corruptChecksum then csum ^^^ 0x0001 else csum)

/-- The checksum stays zero: the socket completes it over the IPv6 pseudo-header. -/
def buildIcmpv6EchoRequestBody (id seq : UInt16) (data : List UInt8) : List UInt8 :=
  buildEchoFrame kIcmpv6TypeEchoRequest kIcmpv6CodeEchoRequest id seq data

end Tc8Harness.Wire
