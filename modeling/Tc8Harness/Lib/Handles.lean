import Mathlib

/-!
# Registrations and the clients that hold them

A registry gives out numbered handles for values, each value belonging to the client that `key` reads
off it. A client remembers the handle it was given and what for. `Registered` says that the two sides
agree: the registry has exactly what the clients hold. It is kept when a client registers, lets its
registration go, or when nothing changes hands.
-/

namespace Tc8Harness.Handles

variable {κ β : Type*} {key : β → κ} {look look' : Nat → Option β} {held held' : κ → Option (Nat × β)}

/-- The registry has a value under a handle exactly when its client holds that handle for it. -/
def Registered (key : β → κ) (look : Nat → Option β) (held : κ → Option (Nat × β)) : Prop :=
  ∀ n v, look n = some v ↔ held (key v) = some (n, v)

theorem Registered.congr (h : Registered key look held) (hlook : ∀ n, look' n = look n)
    (hheld : ∀ k, held' k = held k) : Registered key look' held' := by
  intro n v
  rw [hlook, hheld]
  exact h n v

/-- A client lets its registration go. -/
theorem Registered.release (h : Registered key look held) {k : κ} {n : Nat} {v : β}
    (hk : held k = some (n, v)) (hv : key v = k)
    (hlook : ∀ n', look' n' = if n' = n then none else look n') (hnone : held' k = none)
    (hheld : ∀ k', k' ≠ k → held' k' = held k') : Registered key look' held' := by
  intro n' v'
  rw [hlook]
  by_cases hkey : key v' = k
  · -- the client holds nothing now, and what it held is the entry that is gone
    rw [hkey, hnone]
    refine iff_of_false ?_ (by simp)
    split
    · simp
    · next hne =>
      intro hreg
      have hheld' := (h n' v').mp hreg
      rw [hkey, hk] at hheld'
      exact hne (Prod.mk.inj (Option.some.inj hheld')).1.symm
  · rw [hheld _ hkey, ← h n' v']
    split
    · next heq =>
      subst heq
      refine iff_of_false (by simp) ?_
      intro hreg
      have hsame : look n' = some v := (h n' v).mpr (by rw [hv]; exact hk)
      rw [hsame] at hreg
      exact hkey (Option.some.inj hreg ▸ hv)
    · rfl

/-- Some clients let all they hold go at once. -/
theorem Registered.releaseAll (h : Registered key look held) (gone : κ → Prop)
    (hlook : ∀ n v, look' n = some v ↔ look n = some v ∧ ¬ gone (key v))
    (hnone : ∀ k, gone k → held' k = none) (hheld : ∀ k, ¬ gone k → held' k = held k) :
    Registered key look' held' := by
  intro n v
  rw [hlook, h n v]
  by_cases hgone : gone (key v)
  · rw [hnone _ hgone]
    exact iff_of_false (fun hboth => hboth.2 hgone) (by simp)
  · rw [hheld _ hgone]
    exact and_iff_left hgone

/-- A client that holds nothing registers under a handle that is not in use. -/
theorem Registered.acquire (h : Registered key look held) {n : Nat} {v : β}
    (hfree : look n = none) (hk : held (key v) = none)
    (hlook : ∀ n', look' n' = if n' = n then some v else look n')
    (hsome : held' (key v) = some (n, v)) (hheld : ∀ k', k' ≠ key v → held' k' = held k') :
    Registered key look' held' := by
  intro n' v'
  rw [hlook]
  by_cases hkey : key v' = key v
  · rw [hkey, hsome]
    split
    · next heq => rw [heq, Option.some.injEq, Option.some.injEq, Prod.mk.injEq]; simp
    · next hne =>
      refine iff_of_false ?_ ?_
      · intro hreg
        have hheld' := (h n' v').mp hreg
        rw [hkey, hk] at hheld'
        nomatch hheld'
      · intro heq
        exact hne (Prod.mk.inj (Option.some.inj heq)).1.symm
  · rw [hheld _ hkey, ← h n' v']
    split
    · next heq =>
      rw [heq, hfree]
      refine iff_of_false ?_ (by simp)
      intro hvv
      exact hkey (by rw [Option.some.inj hvv])
    · rfl

end Tc8Harness.Handles
