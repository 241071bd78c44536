import Mathlib

/-!
# CBC chains

A chain adds each block to the state and puts the sum through one function. Where the function is
injective and the addition cancels, a chain forgets nothing: the state it starts from is told by the state
it ends in (`chain_injective`), and so is every single block (`chain_ne`).
-/

namespace Tc8Harness.CbcMac

variable {B : Type*}

def chain (E : B → B) (add : B → B → B) (x : B) (blocks : List B) : B :=
  blocks.foldl (fun x block => E (add x block)) x

theorem chain_append (E : B → B) (add : B → B → B) (x : B) (blocks blocks' : List B) :
    chain E add x (blocks ++ blocks') = chain E add (chain E add x blocks) blocks' :=
  List.foldl_append ..

/-- Both sides of an addition cancel. -/
structure Cancels (add : B → B → B) : Prop where
  left : ∀ x, Function.Injective (add x)
  right : ∀ block, Function.Injective fun x => add x block

variable {E : B → B} {add : B → B → B} (hE : Function.Injective E) (hadd : Cancels add)

include hE hadd

theorem chain_injective (blocks : List B) : Function.Injective fun x => chain E add x blocks := by
  induction blocks with
  | nil => exact fun _ _ h => h
  | cons block blocks ih =>
    intro x x' h
    have hsum : E (add x block) = E (add x' block) := ih h
    exact hadd.right block (hE hsum)

/-- Chains over the same blocks but for one end differently. -/
theorem chain_ne {block block' : B} (hne : block ≠ block') (x : B) (before after : List B) :
    chain E add x (before ++ block :: after) ≠ chain E add x (before ++ block' :: after) := by
  intro h
  rw [chain_append, chain_append] at h
  have hsum : E (add (chain E add x before) block) = E (add (chain E add x before) block') :=
    chain_injective hE hadd after h
  exact hne (hadd.left _ (hE hsum))

end Tc8Harness.CbcMac
