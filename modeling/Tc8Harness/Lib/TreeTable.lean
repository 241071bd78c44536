import Mathlib
import Std.Data.TreeMap.Lemmas

/-!
# Lookups in ordered tables

The rules by which a lookup in a `Std.TreeMap` is read after an insertion, an erasure or the erasure
of many keys, stated with equality of keys.
-/

namespace Tc8Harness.TreeTable

variable {κ α : Type} [DecidableEq κ] [Ord κ] [Std.TransOrd κ] [Std.LawfulEqOrd κ]
  {m : Std.TreeMap κ α}

theorem getElem?_insert (k k' : κ) (v : α) :
    (m.insert k v)[k']? = if k' = k then some v else m[k']? := by
  rw [Std.TreeMap.getElem?_insert]
  by_cases h : k' = k
  · rw [if_pos h, if_pos (by rw [h]; exact Std.ReflCmp.compare_self)]
  · rw [if_neg h, if_neg (fun hc => h (Std.LawfulEqCmp.eq_of_compare hc).symm)]

/-- An insertion that leaves a key that is there. -/
theorem getElem?_insertIfNew (k k' : κ) (v : α) :
    (m.insertIfNew k v)[k']? = if k' = k then some (m[k']?.getD v) else m[k']? := by
  rw [Std.TreeMap.getElem?_insertIfNew]
  by_cases h : k' = k
  · subst h
    rw [if_pos rfl]
    by_cases hmem : k' ∈ m
    · rw [if_neg (fun hc => hc.2 hmem), Std.TreeMap.getElem?_eq_some_getElem hmem, Option.getD_some]
    · rw [if_pos ⟨Std.ReflCmp.compare_self, hmem⟩, Std.TreeMap.getElem?_eq_none hmem, Option.getD_none]
  · rw [if_neg h, if_neg (fun hc => h (Std.LawfulEqCmp.eq_of_compare hc.1).symm)]

theorem getElem?_erase (k k' : κ) : (m.erase k)[k']? = if k' = k then none else m[k']? := by
  rw [Std.TreeMap.getElem?_erase]
  by_cases h : k' = k
  · rw [if_pos h, if_pos (by rw [h]; exact Std.ReflCmp.compare_self)]
  · rw [if_neg h, if_neg (fun hc => h (Std.LawfulEqCmp.eq_of_compare hc).symm)]

theorem getElem?_foldl_erase (ks : List κ) (k : κ) :
    (ks.foldl (fun m k => m.erase k) m)[k]? = if k ∈ ks then none else m[k]? := by
  induction ks generalizing m with
  | nil => simp
  | cons k' ks ih =>
    rw [List.foldl_cons, ih, getElem?_erase]
    by_cases hmem : k ∈ ks
    · rw [if_pos hmem, if_pos (List.mem_cons_of_mem k' hmem)]
    · by_cases hk : k = k'
      · rw [if_neg hmem, if_pos hk, if_pos (by rw [hk]; exact List.mem_cons_self)]
      · rw [if_neg hmem, if_neg hk, if_neg (by simp [hk, hmem])]

end Tc8Harness.TreeTable
