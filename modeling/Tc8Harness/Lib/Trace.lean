import Mathlib.Data.List.Induction

/-!
# Traces

A trace is the list of what happened, the oldest first. `last` is the most recent event of a kind, and
`Holds` asks of every event something about the events before it.
-/

namespace Tc8Harness.Trace

variable {α β : Type*}

/-- The most recent event that `f` recognises. -/
def last (f : α → Option β) (trace : List α) : Option β := (trace.filterMap f).getLast?

section Last

variable {f : α → Option β} {trace : List α} {ev : α} {b : β}

@[simp] theorem last_nil : last f [] = none := rfl

theorem last_concat_some (h : f ev = some b) : last f (trace ++ [ev]) = some b := by
  simp [last, List.filterMap_append, h]

theorem last_concat_none (h : f ev = none) : last f (trace ++ [ev]) = last f trace := by
  simp [last, List.filterMap_append, h]

/-- Events of other kinds do not change what the last one was. -/
theorem last_append_none {evs : List α} (h : ∀ ev ∈ evs, f ev = none) :
    last f (trace ++ evs) = last f trace := by
  have hnone : evs.filterMap f = [] := List.filterMap_eq_nil_iff.2 h
  rw [last, List.filterMap_append, hnone, List.append_nil, last]

end Last

section Holds

variable (P : List α → α → Prop)

/-- Every event has what is asked of it, given the events before it. -/
def Holds (trace : List α) : Prop := ∀ past ev future, trace = past ++ ev :: future → P past ev

variable {P} {trace : List α} {ev : α}

theorem holds_nil : Holds P [] := by
  intro past ev future h
  cases past <;> cases h

theorem Holds.concat (h : Holds P trace) (hev : P trace ev) : Holds P (trace ++ [ev]) := by
  intro past ev' future hsplit
  rcases List.eq_nil_or_concat future with rfl | ⟨future, x, rfl⟩
  · obtain ⟨rfl, hlast⟩ := List.append_inj' hsplit rfl
    cases hlast
    exact hev
  · rw [List.concat_eq_append, ← List.cons_append, ← List.append_assoc] at hsplit
    obtain ⟨rfl, -⟩ := List.append_inj' hsplit rfl
    exact h past ev' future rfl

/-- Events that have it after every trace the first ones leave as they found it. -/
theorem Holds.append {evs : List α} (h : Holds P trace)
    (hevs : ∀ past, past <+: evs → ∀ ev ∈ evs, P (trace ++ past) ev) : Holds P (trace ++ evs) := by
  induction evs using List.reverseRecOn with
  | nil => rwa [List.append_nil]
  | append_singleton evs ev ih =>
    rw [← List.append_assoc]
    refine (ih fun past hpast x hx => hevs past (hpast.trans (List.prefix_append _ _)) x
      (List.mem_append_left _ hx)).concat ?_
    exact hevs evs (List.prefix_append _ _) ev (List.mem_append_right _ (List.mem_singleton_self _))

end Holds

end Tc8Harness.Trace
