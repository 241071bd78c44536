import Mathlib

/-!
# Checked access to a buffer

A program that indexes a buffer, run so that an access outside the buffer is `none`. Where every access is
inside, the checked run is the plain run: `load_eq` and `store_eq` for one access, `loadRange_front` and
`loadRange_back` for a loop of reads, `foldlM_eq_some` for a loop of any kind.
-/

namespace Tc8Harness.CheckedAccess

/-- `data[i]`. -/
def load (data : List UInt8) (i : Nat) : Option UInt8 := data[i]?

/-- `data[i] = byte`. -/
def store (data : List UInt8) (i : Nat) (byte : UInt8) : Option (List UInt8) :=
  if i < data.length then some (data.set i byte) else none

/-- `data[i] |= bits`. -/
def orByte (data : List UInt8) (i : Nat) (bits : UInt8) : Option (List UInt8) := do
  let byte ← load data i
  store data i (byte ||| bits)

/-- The bytes a loop from `a` up to `b` reads. -/
def loadRange (data : List UInt8) (a b : Nat) : Option (List UInt8) :=
  (List.range' a (b - a)).mapM (load data)

theorem bind_of_eq_some {α β : Type} {o : Option α} {a : α} (h : o = some a) (f : α → Option β) :
    (o >>= f) = f a := by
  rw [h]
  rfl

theorem load_eq {data : List UInt8} {i : Nat} (h : i < data.length) :
    load data i = some (data.getD i 0) := by
  rw [load, List.getElem?_eq_getElem h, List.getD_eq_getElem _ _ h]

theorem store_eq {data : List UInt8} {i : Nat} (h : i < data.length) (byte : UInt8) :
    store data i byte = some (data.set i byte) := if_pos h

theorem store_some {data data' : List UInt8} {i : Nat} {byte : UInt8}
    (h : store data i byte = some data') : i < data.length ∧ data' = data.set i byte := by
  unfold store at h
  split at h
  · next hlt => exact ⟨hlt, (Option.some.inj h).symm⟩
  · nomatch h

theorem orByte_eq {data : List UInt8} {i : Nat} (h : i < data.length) (bits : UInt8) :
    orByte data i bits = some (data.modify i (· ||| bits)) := by
  rw [orByte, bind_of_eq_some (load_eq h), store_eq h, List.modify_eq_set, List.getD_eq_getElem?_getD,
    List.getElem?_eq_getElem h]
  rfl

theorem orByte_some {data data' : List UInt8} {i : Nat} {bits : UInt8}
    (h : orByte data i bits = some data') : i < data.length ∧ data'.length = data.length := by
  obtain ⟨byte, -, hstore⟩ := Option.bind_eq_some_iff.mp h
  obtain ⟨hlt, rfl⟩ := store_some hstore
  exact ⟨hlt, List.length_set⟩

theorem mapM_load {data : List UInt8} {n a : Nat} (h : a + n ≤ data.length) :
    (List.range' a n).mapM (load data) = some ((data.drop a).take n) := by
  induction n generalizing a with
  | zero => simp
  | succ n ih =>
    have hlt : a < data.length := by omega
    rw [List.range'_succ, List.mapM_cons, load_eq hlt, ih (by omega), List.drop_eq_getElem_cons hlt,
      List.take_succ_cons, List.getD_eq_getElem _ _ hlt]
    rfl

theorem loadRange_front {data : List UInt8} {b : Nat} (h : b ≤ data.length) :
    loadRange data 0 b = some (data.take b) := by
  rw [loadRange, mapM_load (by omega), List.drop_zero, Nat.sub_zero]

theorem loadRange_back {data : List UInt8} (a : Nat) :
    loadRange data a data.length = some (data.drop a) := by
  by_cases ha : a ≤ data.length
  · rw [loadRange, mapM_load (by omega), List.take_of_length_le (by rw [List.length_drop])]
  · have hnone : data.length - a = 0 := by omega
    rw [loadRange, hnone, List.drop_eq_nil_of_le (Nat.le_of_not_le ha)]
    rfl

/-- A loop each of whose turns is the plain turn, as long as an invariant holds. -/
theorem foldlM_eq_some {α β : Type} {g : β → α → Option β} {f : β → α → β} (Inv : β → Prop)
    {as : List α} {b : β} (hb : Inv b)
    (h : ∀ a ∈ as, ∀ b, Inv b → g b a = some (f b a) ∧ Inv (f b a)) :
    as.foldlM g b = some (as.foldl f b) := by
  induction as generalizing b with
  | nil => rfl
  | cons a as ih =>
    obtain ⟨hturn, hinv⟩ := h a List.mem_cons_self b hb
    rw [List.foldlM_cons, bind_of_eq_some hturn, List.foldl_cons]
    exact ih hinv fun a ha => h a (List.mem_cons_of_mem _ ha)

end Tc8Harness.CheckedAccess
