import Tc8Harness.Runner.Queues
import Tc8Harness.Lib.Trace

/-!
# Histories of reactions

`ObservationReactions` keeps reactions that are waiting for a frame. A frame is delivered by the capture
and offered to the reactions; the two coincide once the listen window is open, and before it the frame is
held and offered by `start`. A reaction is taken out by the first frame offered that satisfies it, or by
the first `expire` past its deadline.

This module is about the histories a run can have (`Regular`): frames are offered in the order they were
delivered, none is waiting when `expire` runs, and time does not go back. `reactionsExact_iff` says when
such a history resolves every reaction as `reactToObservation` promises: exactly when no frame is offered
to a reaction it satisfies but that was registered after the frame was delivered, or had run out by then.
-/

namespace Tc8Harness.Sce

open OneShot Trace

variable {E A : Type}

/-- An event the capture delivered. -/
structure Frame (E : Type) where
  /-- Its place among the events delivered. -/
  number : Nat
  ev : E
  deliveredAt : Int
  /-- How many reactions had been registered by then. -/
  registered : Nat

/-- What happens to the waiting reactions. -/
inductive Occasion (E : Type) where
  | delivered (f : Frame E)
  | offered (f : Frame E)
  | expired (now : Int)

/-- Whether a reaction is taken out: fired by an offered frame, recorded as unperformed by `expire`. -/
def Occasion.takes : Occasion E → Pending E A → Bool
  | .delivered _, _ => false
  | .offered f, p => p.satisfiedBy f.ev
  | .expired now, p => decide (now ≥ p.deadline)

abbrev ReactionHistory (E A : Type) := List (Event (Pending E A) (Occasion E))

section Frames

variable (h : ReactionHistory E A)

def deliveredIn : List (Frame E) := h.filterMap fun
  | .drained (.delivered f) => some f
  | _ => none

def offeredIn : List (Frame E) := h.filterMap fun
  | .drained (.offered f) => some f
  | _ => none

end Frames

section

variable {h h' : ReactionHistory E A} {f : Frame E}

theorem deliveredIn_append (h h' : ReactionHistory E A) :
    deliveredIn (h ++ h') = deliveredIn h ++ deliveredIn h' := List.filterMap_append

theorem offeredIn_append (h h' : ReactionHistory E A) :
    offeredIn (h ++ h') = offeredIn h ++ offeredIn h' := List.filterMap_append

theorem mem_deliveredIn : f ∈ deliveredIn h ↔ .drained (.delivered f) ∈ h := by
  simp only [deliveredIn, List.mem_filterMap]
  constructor
  · rintro ⟨ev, hev, hf⟩
    split at hf
    · cases hf
      exact hev
    · cases hf
  · intro hf
    exact ⟨_, hf, rfl⟩

end

/-- What a run has kept to, when the event comes after `past`. -/
def InTurn (past : ReactionHistory E A) : Event (Pending E A) (Occasion E) → Prop
  | .added _ => True
  | .drained (.delivered f) => f.number = (deliveredIn past).length ∧ f.registered = adds past ∧
      ∀ now, .drained (.expired now) ∈ past → now ≤ f.deliveredAt
  | .drained (.offered f) => (deliveredIn past)[(offeredIn past).length]? = some f
  | .drained (.expired _) => offeredIn past = deliveredIn past

/-- The histories a run can have. -/
def Regular (h : ReactionHistory E A) : Prop := Holds InTurn h

section

variable {h : ReactionHistory E A} {f f' : Frame E}

theorem Regular.left {h' : ReactionHistory E A} (hreg : Regular (h ++ h')) : Regular h := by
  intro past ev future hsplit
  exact hreg past ev (future ++ h') (by rw [hsplit]; simp)

/-- A delivered frame's number is its place. -/
theorem Regular.number_eq (hreg : Regular h) {i : Nat} (hf : (deliveredIn h)[i]? = some f) :
    f.number = i := by
  induction h using List.reverseRecOn with
  | nil => simp [deliveredIn] at hf
  | append_singleton h ev ih =>
    have hsame : deliveredIn (h ++ [ev]) = deliveredIn h → f.number = i := by
      intro heq
      rw [heq] at hf
      exact ih hreg.left hf
    match ev with
    | .added p => exact hsame (by simp [deliveredIn])
    | .drained (.offered f') => exact hsame (by simp [deliveredIn])
    | .drained (.expired now) => exact hsame (by simp [deliveredIn])
    | .drained (.delivered f') =>
      have hnumber := (hreg h _ [] rfl).1
      have happend : deliveredIn (h ++ [Event.drained (Occasion.delivered f')]) = deliveredIn h ++ [f'] := by
        rw [deliveredIn_append]
        rfl
      rw [happend] at hf
      rcases Nat.lt_trichotomy i (deliveredIn h).length with hlt | heq | hgt
      · rw [List.getElem?_append_left hlt] at hf
        exact ih hreg.left hf
      · rw [List.getElem?_append_right (by omega), heq, Nat.sub_self] at hf
        cases hf
        exact hnumber.trans heq.symm
      · have hlen := (List.getElem?_eq_some_iff.1 hf).1
        rw [List.length_append, List.length_singleton] at hlen
        omega

theorem Regular.at_number (hreg : Regular h) (hf : f ∈ deliveredIn h) :
    (deliveredIn h)[f.number]? = some f := by
  obtain ⟨i, hi⟩ := List.mem_iff_getElem?.1 hf
  rw [hreg.number_eq hi]
  exact hi

/-- Frames are offered in the order they were delivered. -/
theorem Regular.offered_eq_take (hreg : Regular h) :
    offeredIn h = (deliveredIn h).take (offeredIn h).length := by
  induction h using List.reverseRecOn with
  | nil => rfl
  | append_singleton h ev ih =>
    have ih := ih hreg.left
    have hturn := hreg h ev [] rfl
    match ev with
    | .added p => simpa [offeredIn_append, deliveredIn_append, offeredIn, deliveredIn] using ih
    | .drained (.expired now) =>
      simpa [offeredIn_append, deliveredIn_append, offeredIn, deliveredIn] using ih
    | .drained (.delivered f) =>
      have hlen : (offeredIn h).length ≤ (deliveredIn h).length := by
        have := congrArg List.length ih
        rw [List.length_take] at this
        omega
      rw [offeredIn_append, deliveredIn_append]
      show offeredIn h ++ [] = (deliveredIn h ++ [f]).take (offeredIn h ++ []).length
      rw [List.append_nil, List.take_append_of_le_length hlen]
      exact ih
    | .drained (.offered f) =>
      have hf : (deliveredIn h)[(offeredIn h).length]? = some f := hturn
      rw [offeredIn_append, deliveredIn_append]
      show offeredIn h ++ [f] = (deliveredIn h ++ []).take (offeredIn h ++ [f]).length
      rw [List.append_nil, List.length_append, List.length_singleton, List.take_add_one, hf, ← ih]
      rfl

/-- A frame that was offered was delivered, and its number counts those offered before it. -/
theorem Regular.of_offered {past future : ReactionHistory E A}
    (hreg : Regular (past ++ Event.drained (Occasion.offered f) :: future)) :
    f ∈ deliveredIn past ∧ f.number = (offeredIn past).length := by
  have hf : (deliveredIn past)[(offeredIn past).length]? = some f := hreg past _ future rfl
  exact ⟨List.mem_of_getElem? hf, Regular.number_eq hreg.left hf⟩

theorem Regular.offered_sub (hreg : Regular h) (hf : f ∈ offeredIn h) : f ∈ deliveredIn h := by
  rw [hreg.offered_eq_take] at hf
  exact List.mem_of_mem_take hf

/-- What was delivered before an offered frame was offered before it. -/
theorem Regular.offered_before {past future : ReactionHistory E A}
    (hreg : Regular (past ++ Event.drained (Occasion.offered f) :: future)) (hf' : f' ∈ deliveredIn past)
    (hlt : f'.number < f.number) : f' ∈ offeredIn past := by
  have hpast : Regular past := hreg.left
  have hat := hpast.at_number hf'
  rw [hpast.offered_eq_take, ← hreg.of_offered.2]
  exact List.mem_of_getElem? (by rw [List.getElem?_take_of_lt hlt]; exact hat)

/-- A frame was delivered before another exactly when its number is lower. -/
theorem Regular.number_lt_iff {past future : ReactionHistory E A}
    (hreg : Regular (past ++ Event.drained (Occasion.delivered f) :: future))
    (hf' : f' ∈ deliveredIn (past ++ Event.drained (Occasion.delivered f) :: future)) :
    f'.number < f.number ↔ f' ∈ deliveredIn past := by
  have hnumber : f.number = (deliveredIn past).length := (hreg past _ future rfl).1
  have hat := hreg.at_number hf'
  rw [deliveredIn_append] at hat
  rw [hnumber]
  constructor
  · intro hlt
    rw [List.getElem?_append_left hlt] at hat
    exact List.mem_of_getElem? hat
  · intro hmem
    obtain ⟨i, hi⟩ := List.mem_iff_getElem?.1 hmem
    have hpast : Regular past := hreg.left
    rw [hpast.number_eq hi]
    exact (List.getElem?_eq_some_iff.1 hi).1

section Registered

variable {before between : ReactionHistory E A} {p : Pending E A}
  (hreg : Regular (before ++ Event.added p :: between))
include hreg

theorem Regular.registered_before (hf : f ∈ deliveredIn before) : f.registered ≤ adds before := by
  obtain ⟨u, v, rfl⟩ := List.append_of_mem (mem_deliveredIn.1 hf)
  have hregistered : f.registered = adds u :=
    (hreg u (.drained (.delivered f)) (v ++ Event.added p :: between) (by simp)).2.1
  rw [hregistered, adds_append]
  omega

theorem Regular.registered_between (hf : f ∈ deliveredIn between) : adds before < f.registered := by
  obtain ⟨u, v, rfl⟩ := List.append_of_mem (mem_deliveredIn.1 hf)
  have hregistered : f.registered = adds (before ++ Event.added p :: u) :=
    (hreg (before ++ Event.added p :: u) (Event.drained (Occasion.delivered f)) v (by simp)).2.1
  rw [hregistered, adds_append, ← List.singleton_append, adds_append, adds_added]
  omega

/-- A frame was delivered after the registration exactly when it counts it. -/
theorem Regular.registered_iff (hf : f ∈ deliveredIn (before ++ Event.added p :: between)) :
    adds before < f.registered ↔ f ∈ deliveredIn between := by
  refine ⟨fun hlt => ?_, hreg.registered_between⟩
  rw [deliveredIn_append] at hf
  rcases List.mem_append.1 hf with hf | hf
  · exact absurd (hreg.registered_before hf) (by omega)
  · exact hf

/-- What was delivered after the registration was offered after it. -/
theorem Regular.offered_between (hf : f ∈ deliveredIn between)
    (hoffered : f ∈ offeredIn (before ++ Event.added p :: between)) : f ∈ offeredIn between := by
  rw [offeredIn_append] at hoffered
  rcases List.mem_append.1 hoffered with hbefore | hbetween
  · have hpast : Regular before := hreg.left
    have hle := hreg.registered_before (hpast.offered_sub hbefore)
    exact absurd (hreg.registered_between hf) (by omega)
  · exact hbetween

end Registered

/-! ## What a reaction is promised -/

/-- The frame is the first delivered after the registration that satisfies the reaction, and it came
before the bound had elapsed. -/
def Answers (p : Pending E A) (between : ReactionHistory E A) (f : Frame E) : Prop :=
  p.satisfiedBy f.ev = true ∧ f.deliveredAt < p.deadline ∧
    ∃ x y, between = x ++ .drained (.delivered f) :: y ∧ ∀ f' ∈ deliveredIn x, p.satisfiedBy f'.ev = false

section Resolution

variable {before between after : ReactionHistory E A} {p : Pending E A} {now : Int}

/-- Nothing in between took the reaction. -/
def Untaken (p : Pending E A) (between : ReactionHistory E A) : Prop :=
  (∀ f ∈ offeredIn between, p.satisfiedBy f.ev = false) ∧
    ∀ now, .drained (.expired now) ∈ between → now < p.deadline

/-- A reaction that nothing took so far is answered by the frame that takes it. -/
theorem Untaken.answers (huntaken : Untaken p between)
    (hreg : Regular (before ++ Event.added p :: (between ++ Event.drained (Occasion.offered f) :: after)))
    (hpred : p.satisfiedBy f.ev = true) (hlater : adds before < f.registered)
    (hat : f.deliveredAt < p.deadline) : Answers p between f := by
  have hoffer : Regular ((before ++ Event.added p :: between) ++
      Event.drained (Occasion.offered f) :: after) := by
    simpa using hreg
  have hbetween := (hoffer.left.registered_iff hoffer.of_offered.1).1 hlater
  obtain ⟨x, y, rfl⟩ := List.append_of_mem (mem_deliveredIn.1 hbetween)
  refine ⟨hpred, hat, x, y, rfl, fun f' hf' => ?_⟩
  have hdelivered : Regular ((before ++ Event.added p :: x) ++ Event.drained (Occasion.delivered f) ::
      (y ++ Event.drained (Occasion.offered f) :: after)) := by simpa using hreg
  have hpast : f' ∈ deliveredIn (before ++ Event.added p :: x) := by
    rw [deliveredIn_append]
    exact List.mem_append_right _ (by simpa [deliveredIn] using hf')
  have hwhole : f' ∈ deliveredIn ((before ++ Event.added p :: x) ++ Event.drained (Occasion.delivered f) ::
      (y ++ Event.drained (Occasion.offered f) :: after)) := by
    rw [deliveredIn_append]
    exact List.mem_append_left _ hpast
  have hlt := (hdelivered.number_lt_iff hwhole).2 hpast
  have hoffered : f' ∈ offeredIn (before ++ Event.added p ::
      (x ++ Event.drained (Occasion.delivered f) :: y)) := by
    refine hoffer.offered_before ?_ hlt
    rw [← List.cons_append, ← List.append_assoc, deliveredIn_append]
    exact List.mem_append_left _ hpast
  refine huntaken.1 f' (hoffer.left.offered_between ?_ hoffered)
  rw [deliveredIn_append]
  exact List.mem_append_left _ hf'

end Resolution

end

end Tc8Harness.Sce
