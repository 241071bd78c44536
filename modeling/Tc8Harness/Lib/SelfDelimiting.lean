import Mathlib.Data.List.Basic
import Mathlib.Logic.Function.Basic

/-!
# Self-delimiting encodings

An encoding whose end can be told from the front of whatever it stands in. Words closed by a letter they do
not have and words of one length are such encodings; one encoding followed by another that it announces is
one (`SelfDelimiting.andThen`). A list of them can be read back (`SelfDelimiting.flatMap_inj`).
-/

namespace Tc8Harness.Encoding

variable {α β κ : Type*}

/-- What follows an encoded value of `P` does not change how the value is read. -/
def SelfDelimiting (P : α → Prop) (e : α → List β) : Prop :=
  ∀ ⦃a b⦄, P a → P b → ∀ s t, e a ++ s = e b ++ t → a = b ∧ s = t

/-- A word that ends where `z` first stands. -/
theorem of_terminator (z : β) : SelfDelimiting (z ∉ ·) (fun w : List β => w ++ [z]) := by
  intro a
  induction a with
  | nil =>
    intro b _ hb s t h
    cases b with
    | nil => exact ⟨rfl, List.append_cancel_left h⟩
    | cons y b =>
      injection h with hy
      exact absurd (hy ▸ List.mem_cons_self) hb
  | cons x a ih =>
    intro b ha hb s t h
    cases b with
    | nil =>
      injection h with hx
      exact absurd (hx ▸ List.mem_cons_self) ha
    | cons y b =>
      injection h with hxy hrest
      obtain ⟨hab, hst⟩ := ih (fun hz => ha (List.mem_cons_of_mem x hz))
        (fun hz => hb (List.mem_cons_of_mem y hz)) s t hrest
      exact ⟨by rw [hxy, hab], hst⟩

theorem of_length {P : α → Prop} {e : α → List β} {n : Nat} (hlen : ∀ a, (e a).length = n)
    (hinj : ∀ ⦃a b⦄, P a → P b → e a = e b → a = b) : SelfDelimiting P e := by
  intro a b ha hb s t h
  obtain ⟨hab, hst⟩ := List.append_inj h ((hlen a).trans (hlen b).symm)
  exact ⟨hinj ha hb hab, hst⟩

/-- A part `k a` in front, then what is self-delimiting once that part is known. -/
theorem SelfDelimiting.andThen {P : α → Prop} {Q : κ → Prop} {e₁ : κ → List β} {e₂ : α → List β}
    {k : α → κ} (h₁ : SelfDelimiting Q e₁) (hk : ∀ ⦃a⦄, P a → Q (k a))
    (h₂ : ∀ key, SelfDelimiting (fun a => P a ∧ k a = key) e₂) :
    SelfDelimiting P (fun a => e₁ (k a) ++ e₂ a) := by
  intro a b ha hb s t h
  rw [List.append_assoc, List.append_assoc] at h
  obtain ⟨hkey, hrest⟩ := h₁ (hk ha) (hk hb) _ _ h
  exact h₂ (k a) ⟨ha, rfl⟩ ⟨hb, hkey.symm⟩ s t hrest

/-- **A sequence of self-delimiting words can be read back.** -/
theorem SelfDelimiting.flatMap_inj {P : α → Prop} {e : α → List β} (h : SelfDelimiting P e)
    (hne : ∀ a, e a ≠ []) {xs ys : List α} (hxs : ∀ a ∈ xs, P a) (hys : ∀ a ∈ ys, P a)
    (heq : xs.flatMap e = ys.flatMap e) : xs = ys := by
  induction xs generalizing ys with
  | nil =>
    cases ys with
    | nil => rfl
    | cons y ys =>
      rw [List.flatMap_nil, List.flatMap_cons] at heq
      exact absurd (List.append_eq_nil_iff.1 heq.symm).1 (hne y)
  | cons x xs ih =>
    cases ys with
    | nil =>
      rw [List.flatMap_nil, List.flatMap_cons] at heq
      exact absurd (List.append_eq_nil_iff.1 heq).1 (hne x)
    | cons y ys =>
      rw [List.flatMap_cons, List.flatMap_cons] at heq
      rw [List.forall_mem_cons] at hxs hys
      obtain ⟨hxy, hrest⟩ := h hxs.1 hys.1 _ _ heq
      rw [hxy, ih hxs.2 hys.2 hrest]

end Tc8Harness.Encoding
