import Mathlib

/-!
# Fields of bits

A layout gives each field a width and each bit of a field a place of its own. Packing turns the values
of the fields into the set of places that hold a one, and unpacking reads a value back. `unpack_pack`
and `pack_unpack` are the two round trips: up to the field's width one way, and for a set of ones
within the fields the other.
-/

namespace Tc8Harness.BitFields

/-- The widths of the fields and the places of their bits, no two of which coincide. -/
structure Layout (ι P : Type*) where
  width : ι → Nat
  place : ι → Nat → P
  place_inj : ∀ {i j k l}, k < width i → l < width j → place i k = place j l → i = j ∧ k = l

namespace Layout

variable {ι P : Type*} (L : Layout ι P) {value : ι → Nat} {ones : Set P} {i : ι} {k : Nat}

/-- The places of all fields. -/
def support : Set P := {p | ∃ i k, k < L.width i ∧ L.place i k = p}

/-- The places of the ones when the fields hold `value`. -/
def pack (value : ι → Nat) : Set P :=
  {p | ∃ i k, k < L.width i ∧ (value i).testBit k = true ∧ L.place i k = p}

open Classical in
/-- The value of a field. -/
noncomputable def unpack (ones : Set P) (i : ι) : Nat :=
  Nat.ofBits fun k : Fin (L.width i) => decide (L.place i k ∈ ones)

variable {L}

open Classical in
theorem testBit_unpack :
    (L.unpack ones i).testBit k = true ↔ k < L.width i ∧ L.place i k ∈ ones := by
  rw [unpack]
  by_cases hk : k < L.width i
  · rw [Nat.testBit_ofBits_lt _ _ hk, decide_eq_true_iff]
    exact ⟨fun h => ⟨hk, h⟩, fun h => h.2⟩
  · rw [Nat.testBit_ofBits_ge _ _ (Nat.le_of_not_lt hk)]
    simp [hk]

theorem place_mem_pack (hk : k < L.width i) :
    L.place i k ∈ L.pack value ↔ (value i).testBit k = true := by
  constructor
  · rintro ⟨j, l, hl, hbit, hplace⟩
    obtain ⟨rfl, rfl⟩ := L.place_inj hl hk hplace
    exact hbit
  · intro hbit
    exact ⟨i, k, hk, hbit, rfl⟩

theorem unpack_pack : L.unpack (L.pack value) i = value i % 2 ^ L.width i := by
  apply Nat.eq_of_testBit_eq
  intro k
  rw [Bool.eq_iff_iff, testBit_unpack, Nat.testBit_mod_two_pow, Bool.and_eq_true,
    decide_eq_true_iff]
  exact and_congr_right fun hk => place_mem_pack hk

theorem pack_unpack (h : ones ⊆ L.support) : L.pack (L.unpack ones) = ones := by
  ext p
  constructor
  · rintro ⟨i, k, -, hbit, rfl⟩
    exact (testBit_unpack.1 hbit).2
  · intro hp
    obtain ⟨i, k, hk, rfl⟩ := h hp
    exact ⟨i, k, hk, testBit_unpack.2 ⟨hk, hp⟩, rfl⟩

end Layout

end Tc8Harness.BitFields
