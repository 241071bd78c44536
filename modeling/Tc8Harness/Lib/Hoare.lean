import Mathlib

/-!
# Conditions before and after a program

A program is a state transformer that may have no result: `none` is a process that has come to its end in
the middle. `Ensures P m Q`: from a state with `P`, the program `m` returns an answer and leaves a state
with `Q` between them; `Always m q` has this from any state, of the answer alone. `Leaves P m Q` says it of
the runs that have a result. One rule per way a program is put together; a program that reads the state is
judged for each state it may have read.
-/

namespace Tc8Harness.Hoare

variable {S α β : Type} {P P' : S → Prop} {Q Q' : α → S → Prop} {R : β → S → Prop}
  {m : StateT S Option α}

/-! ## With a result -/

def Ensures (P : S → Prop) (m : StateT S Option α) (Q : α → S → Prop) : Prop :=
  ∀ s, P s → ∃ a t, m.run s = some (a, t) ∧ Q a t

theorem ensures_pure {a : α} (h : ∀ s, P s → Q a s) : Ensures P (pure a) Q :=
  fun s hs => ⟨a, s, rfl, h s hs⟩

theorem Ensures.bind {k : α → StateT S Option β} (hm : Ensures P m Q)
    (hk : ∀ a, Ensures (Q a) (k a) R) : Ensures P (m >>= k) R := by
  intro s hs
  obtain ⟨a, t, hrun, ht⟩ := hm s hs
  obtain ⟨b, u, hrun', hu⟩ := hk a t ht
  refine ⟨b, u, ?_, hu⟩
  rw [StateT.run_bind, hrun]
  exact hrun'

theorem Ensures.map {f : α → β} (hm : Ensures P m fun a => R (f a)) : Ensures P (f <$> m) R := by
  intro s hs
  obtain ⟨a, t, hrun, ht⟩ := hm s hs
  refine ⟨f a, t, ?_, ht⟩
  rw [StateT.run_map, hrun]
  rfl

theorem Ensures.pre (hm : Ensures P m Q) (h : ∀ s, P' s → P s) : Ensures P' m Q :=
  fun s hs => hm s (h s hs)

theorem ensures_ite {c : Prop} [Decidable c] {m' : StateT S Option α} (ht : c → Ensures P m Q)
    (hf : ¬ c → Ensures P m' Q) : Ensures P (if c then m else m') Q := by
  by_cases h : c
  · rw [if_pos h]
    exact ht h
  · rw [if_neg h]
    exact hf h

theorem ensures_modify {f : S → S} {Q : Unit → S → Prop} (h : ∀ s, P s → Q () (f s)) :
    Ensures P (modify f : StateT S Option Unit) Q := fun s hs => ⟨(), f s, rfl, h s hs⟩

/-- Reading the state tells the rest of the program which one it is. -/
theorem ensures_get_bind {k : S → StateT S Option β} (h : ∀ s, Ensures (fun t => t = s ∧ P t) (k s) R) :
    Ensures P (get >>= k) R := fun s hs => h s s ⟨rfl, hs⟩

/-- A condition that does not depend on the state is a hypothesis. -/
theorem ensures_and_left {c : Prop} (h : c → Ensures P m Q) : Ensures (fun s => c ∧ P s) m Q :=
  fun s hs => h hs.1 s hs.2

/-! ## From any state -/

section Always

variable {q : α → Prop} {r : β → Prop}

/-- Whatever state the program is run in, it answers with `q`. -/
def Always (m : StateT S Option α) (q : α → Prop) : Prop := Ensures (fun _ => True) m fun a _ => q a

/-- It answers. -/
def Answers (m : StateT S Option α) : Prop := Always m fun _ => True

theorem always_pure {a : α} (h : q a) : Always (pure a : StateT S Option α) q := ensures_pure fun _ _ => h

theorem answers_pure (a : α) : Answers (pure a : StateT S Option α) := always_pure trivial

theorem always_bind {k : α → StateT S Option β} (hm : Answers m) (h : ∀ a, Always (k a) r) :
    Always (m >>= k) r := Ensures.bind hm fun a => (h a).pre fun _ _ => trivial

theorem always_get_bind {k : S → StateT S Option β} (h : ∀ s, Always (k s) r) :
    Always (get >>= k) r := ensures_get_bind fun s => (h s).pre fun _ _ => trivial

theorem always_ite {c : Prop} [Decidable c] {m' : StateT S Option α} (ht : Always m q)
    (hf : Always m' q) : Always (if c then m else m') q := ensures_ite (fun _ => ht) fun _ => hf

theorem answers_modify (f : S → S) : Answers (modify f : StateT S Option Unit) :=
  ensures_modify fun _ _ => trivial

end Always

/-! ## Where there is a result -/

def Leaves (P : S → Prop) (m : StateT S Option α) (Q : α → S → Prop) : Prop :=
  ∀ s, P s → ∀ a t, m.run s = some (a, t) → Q a t

theorem leaves_pure {a : α} (h : ∀ s, P s → Q a s) : Leaves P (pure a) Q := by
  rintro s hs b t hrun
  obtain ⟨rfl, rfl⟩ := Prod.mk.inj (Option.some.inj hrun)
  exact h s hs

theorem Leaves.bind {k : α → StateT S Option β} (hm : Leaves P m Q) (hk : ∀ a, Leaves (Q a) (k a) R) :
    Leaves P (m >>= k) R := by
  intro s hs b u hrun
  rw [StateT.run_bind] at hrun
  obtain ⟨⟨a, t⟩, hm', hk'⟩ := Option.bind_eq_some_iff.mp hrun
  exact hk a t (hm s hs a t hm') b u hk'

theorem Leaves.pre (hm : Leaves P m Q) (h : ∀ s, P' s → P s) : Leaves P' m Q :=
  fun s hs => hm s (h s hs)

theorem leaves_ite {c : Prop} [Decidable c] {m' : StateT S Option α} (ht : Leaves P m Q)
    (hf : Leaves P m' Q) : Leaves P (if c then m else m') Q := by
  by_cases h : c
  · rw [if_pos h]
    exact ht
  · rw [if_neg h]
    exact hf

theorem leaves_modify {f : S → S} {Q : Unit → S → Prop} (h : ∀ s, P s → Q () (f s)) :
    Leaves P (modify f : StateT S Option Unit) Q := by
  rintro s hs a t hrun
  obtain ⟨rfl, rfl⟩ := Prod.mk.inj (Option.some.inj hrun)
  exact h s hs

theorem leaves_get_bind {k : S → StateT S Option β} (h : ∀ s, Leaves P (k s) R) :
    Leaves P (get >>= k) R := fun s hs => h s s hs

/-! ## Programs that leave an observation alone -/

section Frames

variable {γ : Type} {obs : S → γ} {q : α → Prop} {r : β → Prop}

/-- What `obs` sees of the state stays, and the answer has `q`. -/
def Frames (obs : S → γ) (q : α → Prop) (m : StateT S Option α) : Prop :=
  ∀ c, Leaves (fun s => obs s = c) m fun a s => q a ∧ obs s = c

theorem Frames.obs_eq (h : Frames obs q m) {s t : S} {a : α} (hrun : m.run s = some (a, t)) :
    obs t = obs s := (h _ s rfl a t hrun).2

theorem Frames.answer (h : Frames obs q m) {s t : S} {a : α} (hrun : m.run s = some (a, t)) : q a :=
  (h _ s rfl a t hrun).1

theorem frames_pure {a : α} (h : q a) : Frames obs q (pure a : StateT S Option α) :=
  fun _ => leaves_pure fun _ hs => ⟨h, hs⟩

theorem Frames.bind {k : α → StateT S Option β} (hm : Frames obs q m)
    (hk : ∀ a, q a → Frames obs r (k a)) : Frames obs r (m >>= k) :=
  fun c => (hm c).bind fun a s hs => hk a hs.1 c s hs.2

/-- A call whose answer does not matter. -/
theorem Frames.seq {k : α → StateT S Option β} (hm : Frames obs q m) (hk : ∀ a, Frames obs r (k a)) :
    Frames obs r (m >>= k) := hm.bind fun a _ => hk a

theorem frames_get_bind {k : S → StateT S Option β} (hk : ∀ s, Frames obs r (k s)) :
    Frames obs r (get >>= k) := fun c => leaves_get_bind fun s => hk s c

theorem frames_ite {c : Prop} [Decidable c] {m' : StateT S Option α} (ht : Frames obs q m)
    (hf : Frames obs q m') : Frames obs q (if c then m else m') := fun d => leaves_ite (ht d) (hf d)

theorem frames_modify {f : S → S} (h : ∀ s, obs (f s) = obs s) :
    Frames obs (fun _ => True) (modify f : StateT S Option Unit) :=
  fun _ => leaves_modify fun s hs => ⟨trivial, (h s).trans hs⟩

end Frames

end Tc8Harness.Hoare
