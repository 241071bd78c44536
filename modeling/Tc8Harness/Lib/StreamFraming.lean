import Mathlib

/-!
# Cutting a stream into messages

A `Parser` reads one message at the front of a buffer and says how much it took; once it reads one,
bytes arriving later do not change what it read. `frames` takes messages until none parses and keeps
the rest. `frames_append` says that what is kept and what comes next give the messages still to come,
so a receiver that buffers its rest sees the same messages however the stream was cut
(`feedChunks_eq`). `starts` says where in the stream the messages of a buffer begin.
-/

namespace Tc8Harness.StreamFraming

variable {α β : Type*}

/-- One message at the front of a buffer, with the number of elements it takes. -/
structure Parser (α β : Type*) where
  parse : List α → Option (β × Nat)
  pos : ∀ {data m n}, parse data = some (m, n) → 0 < n
  le : ∀ {data m n}, parse data = some (m, n) → n ≤ data.length
  stable : ∀ {data m n} (more : List α), parse data = some (m, n) →
    parse (data ++ more) = some (m, n)

namespace Parser

variable (P : Parser α β)

/-- At most `fuel` messages from the front of a buffer, and what is left. -/
def split : Nat → List α → List β × List α
  | 0, data => ([], data)
  | fuel + 1, data =>
    match P.parse data with
    | none => ([], data)
    | some (m, n) => (m :: (split fuel (data.drop n)).1, (split fuel (data.drop n)).2)

/-- Every message at the front of a buffer, and what is left. -/
def frames (data : List α) : List β × List α := P.split data.length data

theorem parse_nil : P.parse [] = none := by
  cases h : P.parse [] with
  | none => rfl
  | some mn =>
    obtain ⟨m, n⟩ := mn
    have hle := P.le h
    have hpos := P.pos h
    rw [List.length_nil] at hle
    omega

/-- More fuel than elements changes nothing. -/
theorem split_eq_of_le {fuel : Nat} {data : List α} (h : data.length ≤ fuel) :
    P.split fuel data = P.frames data := by
  suffices hsplit : ∀ {fuel fuel' : Nat} {data : List α}, data.length ≤ fuel →
      data.length ≤ fuel' → P.split fuel data = P.split fuel' data from hsplit h le_rfl
  intro fuel
  induction fuel with
  | zero =>
    intro fuel' data h _
    obtain rfl := List.length_eq_zero_iff.1 (Nat.le_zero.1 h)
    cases fuel' <;> simp [split, P.parse_nil]
  | succ fuel ih =>
    intro fuel' data h h'
    cases fuel' with
    | zero =>
      obtain rfl := List.length_eq_zero_iff.1 (Nat.le_zero.1 h')
      simp [split, P.parse_nil]
    | succ fuel' =>
      cases hparse : P.parse data with
      | none => simp [split, hparse]
      | some mn =>
        obtain ⟨m, n⟩ := mn
        have hpos := P.pos hparse
        have hdrop : P.split fuel (data.drop n) = P.split fuel' (data.drop n) := by
          apply ih <;> rw [List.length_drop] <;> omega
        simp [split, hparse, hdrop]

theorem frames_of_none {data : List α} (h : P.parse data = none) : P.frames data = ([], data) := by
  unfold frames
  cases hlen : data.length with
  | zero => rfl
  | succ fuel => simp [split, h]

theorem frames_of_some {data : List α} {m : β} {n : Nat} (h : P.parse data = some (m, n)) :
    P.frames data = (m :: (P.frames (data.drop n)).1, (P.frames (data.drop n)).2) := by
  have hpos := P.pos h
  have hle := P.le h
  obtain ⟨fuel, hlen⟩ : ∃ fuel, data.length = fuel + 1 := ⟨data.length - 1, by omega⟩
  have hrest : P.split fuel (data.drop n) = P.frames (data.drop n) := by
    apply P.split_eq_of_le
    rw [List.length_drop]
    omega
  rw [← hrest, frames, hlen, split, h]

/-- What is left holds no further message. -/
theorem parse_frames_snd (data : List α) : P.parse (P.frames data).2 = none := by
  induction hlen : data.length using Nat.strong_induction_on generalizing data with
  | _ len ih =>
    cases hparse : P.parse data with
    | none => rw [P.frames_of_none hparse, hparse]
    | some mn =>
      obtain ⟨m, n⟩ := mn
      have hpos := P.pos hparse
      have hle := P.le hparse
      rw [P.frames_of_some hparse]
      exact ih (data.drop n).length (by rw [List.length_drop]; omega) _ rfl

/-- **The rest carries everything.** Messages of a longer buffer are those of its front and then
those of the front's rest with what follows. -/
theorem frames_append (a b : List α) :
    P.frames (a ++ b) =
      ((P.frames a).1 ++ (P.frames ((P.frames a).2 ++ b)).1, (P.frames ((P.frames a).2 ++ b)).2) := by
  induction hlen : a.length using Nat.strong_induction_on generalizing a with
  | _ len ih =>
    cases hparse : P.parse a with
    | none => simp [P.frames_of_none hparse]
    | some mn =>
      obtain ⟨m, n⟩ := mn
      have hpos := P.pos hparse
      have hle := P.le hparse
      have hdrop : (a ++ b).drop n = a.drop n ++ b := List.drop_append_of_le_length hle
      have hshort : (a.drop n).length < len := by
        rw [List.length_drop]
        omega
      rw [P.frames_of_some (P.stable b hparse), P.frames_of_some hparse, hdrop,
        ih _ hshort (a.drop n) rfl]
      rfl

theorem frames_snd_suffix (data : List α) : (P.frames data).2 <:+ data := by
  induction hlen : data.length using Nat.strong_induction_on generalizing data with
  | _ len ih =>
    cases hparse : P.parse data with
    | none =>
      rw [P.frames_of_none hparse]
    | some mn =>
      obtain ⟨m, n⟩ := mn
      have hpos := P.pos hparse
      have hle := P.le hparse
      rw [P.frames_of_some hparse]
      exact (ih (data.drop n).length (by rw [List.length_drop]; omega) _ rfl).trans
        (List.drop_suffix n data)

/-- Every message was read somewhere in the buffer. -/
theorem mem_frames {data : List α} {m : β} (hm : m ∈ (P.frames data).1) :
    ∃ at_ n, P.parse (data.drop at_) = some (m, n) := by
  induction hlen : data.length using Nat.strong_induction_on generalizing data with
  | _ len ih =>
    cases hparse : P.parse data with
    | none =>
      rw [P.frames_of_none hparse] at hm
      cases hm
    | some mn =>
      obtain ⟨m', n⟩ := mn
      have hpos := P.pos hparse
      have hle := P.le hparse
      rw [P.frames_of_some hparse] at hm
      rcases List.mem_cons.1 hm with rfl | hm
      · exact ⟨0, n, hparse⟩
      · obtain ⟨at_, n', hrest⟩ := ih (data.drop n).length (by rw [List.length_drop]; omega) hm rfl
        exact ⟨n + at_, n', by rw [← List.drop_drop, hrest]⟩

/-- Where the messages of a buffer start, when the buffer itself starts at `base`. -/
def starts (base : Nat) (data : List α) : List Nat := go data.length base data
where
  go : Nat → Nat → List α → List Nat
  | 0, _, _ => []
  | fuel + 1, base, data =>
    match P.parse data with
    | none => []
    | some (_, n) => base :: go fuel (base + n) (data.drop n)

theorem starts_go_eq {fuel fuel' : Nat} {data : List α} (h : data.length ≤ fuel)
    (h' : data.length ≤ fuel') (base : Nat) :
    starts.go P fuel base data = starts.go P fuel' base data := by
  induction fuel generalizing fuel' base data with
  | zero =>
    obtain rfl := List.length_eq_zero_iff.1 (Nat.le_zero.1 h)
    cases fuel' <;> simp [starts.go, P.parse_nil]
  | succ fuel ih =>
    cases fuel' with
    | zero =>
      obtain rfl := List.length_eq_zero_iff.1 (Nat.le_zero.1 h')
      simp [starts.go, P.parse_nil]
    | succ fuel' =>
      cases hparse : P.parse data with
      | none => simp [starts.go, hparse]
      | some mn =>
        obtain ⟨m, n⟩ := mn
        have hpos := P.pos hparse
        have hrest := ih (show (data.drop n).length ≤ fuel by rw [List.length_drop]; omega)
          (show (data.drop n).length ≤ fuel' by rw [List.length_drop]; omega) (base + n)
        simp [starts.go, hparse, hrest]

theorem starts_of_none {data : List α} (h : P.parse data = none) (base : Nat) :
    P.starts base data = [] := by
  unfold starts
  cases data.length <;> simp [starts.go, h]

theorem starts_of_some {data : List α} {m : β} {n : Nat} (h : P.parse data = some (m, n))
    (base : Nat) : P.starts base data = base :: P.starts (base + n) (data.drop n) := by
  have hpos := P.pos h
  have hle := P.le h
  obtain ⟨fuel, hlen⟩ : ∃ fuel, data.length = fuel + 1 := ⟨data.length - 1, by omega⟩
  have hrest := P.starts_go_eq (show (data.drop n).length ≤ fuel by rw [List.length_drop]; omega)
    (Nat.le_refl _) (base + n)
  rw [starts, hlen, starts.go, h]
  exact congrArg (base :: ·) hrest

theorem length_starts (base : Nat) (data : List α) :
    (P.starts base data).length = (P.frames data).1.length := by
  induction hlen : data.length using Nat.strong_induction_on generalizing data base with
  | _ len ih =>
    cases hparse : P.parse data with
    | none =>
      rw [P.starts_of_none hparse, P.frames_of_none hparse]
      rfl
    | some mn =>
      obtain ⟨m, n⟩ := mn
      have hpos := P.pos hparse
      have hle := P.le hparse
      have hrest := ih (data.drop n).length (by rw [List.length_drop]; omega) (base + n) _ rfl
      rw [P.starts_of_some hparse, P.frames_of_some hparse, List.length_cons, List.length_cons, hrest]

/-- Each message starts behind the one before it and before what is left. -/
theorem mem_starts {data : List α} {base q : Nat} (hq : q ∈ P.starts base data) :
    base ≤ q ∧ q + (P.frames data).2.length < base + data.length ∧
      (P.parse (data.drop (q - base))).isSome := by
  induction hlen : data.length using Nat.strong_induction_on generalizing data base with
  | _ len ih =>
    cases hparse : P.parse data with
    | none =>
      rw [P.starts_of_none hparse] at hq
      cases hq
    | some mn =>
      obtain ⟨m, n⟩ := mn
      have hpos := P.pos hparse
      have hle := P.le hparse
      have hrest := (P.frames_snd_suffix (data.drop n)).length_le
      rw [List.length_drop] at hrest
      rw [P.starts_of_some hparse] at hq
      rw [P.frames_of_some hparse]
      rcases List.mem_cons.1 hq with rfl | hq
      · refine ⟨Nat.le_refl _, by dsimp only; omega, ?_⟩
        rw [Nat.sub_self, List.drop_zero, hparse]
        rfl
      · obtain ⟨hfrom, hto, hsome⟩ := ih (data.drop n).length (by rw [List.length_drop]; omega) hq rfl
        rw [List.length_drop] at hto
        rw [List.drop_drop, show n + (q - (base + n)) = q - base by omega] at hsome
        exact ⟨by omega, by dsimp only; omega, hsome⟩

theorem pairwise_starts (base : Nat) (data : List α) : (P.starts base data).Pairwise (· < ·) := by
  induction hlen : data.length using Nat.strong_induction_on generalizing data base with
  | _ len ih =>
    cases hparse : P.parse data with
    | none =>
      rw [P.starts_of_none hparse]
      exact List.Pairwise.nil
    | some mn =>
      obtain ⟨m, n⟩ := mn
      have hpos := P.pos hparse
      have hle := P.le hparse
      rw [P.starts_of_some hparse]
      refine List.pairwise_cons.2 ⟨fun q hq => ?_, ih (data.drop n).length
        (by rw [List.length_drop]; omega) _ _ rfl⟩
      have hfrom := (P.mem_starts hq).1
      omega

/-- Messages written one after the other are read back one after the other. -/
theorem frames_flatMap {γ : Type*} {enc : γ → List α} {dec : γ → β} {xs : List γ}
    (h : ∀ x ∈ xs, ∀ rest, P.parse (enc x ++ rest) = some (dec x, (enc x).length)) :
    P.frames (xs.flatMap enc) = (xs.map dec, []) := by
  induction xs with
  | nil => exact P.frames_of_none P.parse_nil
  | cons x xs ih =>
    have hx := h x List.mem_cons_self (xs.flatMap enc)
    have hxs := ih fun y hy => h y (List.mem_cons_of_mem x hy)
    rw [List.flatMap_cons, P.frames_of_some hx, List.drop_left, hxs, List.map_cons]

/-- Chunks arriving one by one at a receiver that keeps its rest. -/
def feedChunks : List α → List (List α) → List β × List α
  | rest, [] => ([], rest)
  | rest, chunk :: chunks =>
    ((P.frames (rest ++ chunk)).1 ++ (feedChunks (P.frames (rest ++ chunk)).2 chunks).1,
      (feedChunks (P.frames (rest ++ chunk)).2 chunks).2)

/-- **Cutting does not matter**, for a receiver whose rest holds no whole message. -/
theorem feedChunks_eq {rest : List α} (hrest : P.parse rest = none) (chunks : List (List α)) :
    P.feedChunks rest chunks = P.frames (rest ++ chunks.flatten) := by
  induction chunks generalizing rest with
  | nil => simp [feedChunks, P.frames_of_none hrest]
  | cons chunk chunks ih =>
    rw [feedChunks, ih (P.parse_frames_snd _), List.flatten_cons, ← List.append_assoc,
      P.frames_append (rest ++ chunk)]

end Parser

end Tc8Harness.StreamFraming
