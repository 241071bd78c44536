import Mathlib

/-!
# Code, length and value

A list of items, each a code, a length byte and that many bytes, with a code that stands alone as padding
and one that ends the list. `Reads` is the grammar: the items of a list and how it ends, one way for
every list (`Reads.parse_eq`). `parse` reads the items and says how the list ended; a list that was
written from fields parses to their items (`parse_fields`). A loop over such a list by an index, whatever it
does at an item, is determined by the parse (`walk_eq`), and it comes to an end (`walkFuel_eq`).
-/

namespace Tc8Harness.Tlv

/-- How a list of items ends: at the end code, at the end of the bytes, or at an item that runs past
them. -/
inductive Stop where
  | marker
  | exhausted
  | malformed
  deriving DecidableEq, Repr

variable (pad fin : UInt8)

/-- The items and the end of the list, in at most the given number of steps. -/
def parse : Nat → List UInt8 → List (UInt8 × List UInt8) × Stop
  | 0, _ => ([], .exhausted)
  | _ + 1, [] => ([], .exhausted)
  | steps + 1, code :: rest =>
    if code = fin then ([], .marker)
    else if code = pad then parse steps rest
    else
      match rest with
      | [] => ([], .malformed)
      | len :: body =>
        if body.length < len.toNat then ([], .malformed)
        else
          let tail := parse steps (body.drop len.toNat)
          ((code, body.take len.toNat) :: tail.1, tail.2)

/-- The bytes of an item. -/
def item (code : UInt8) (value : List UInt8) : List UInt8 :=
  code :: UInt8.ofNat value.length :: value

variable {pad fin} {code : UInt8} {value rest : List UInt8} {steps : Nat}

theorem length_item : (item code value).length = value.length + 2 := rfl

theorem parse_cons :
    parse pad fin (steps + 1) (code :: rest) =
      if code = fin then ([], .marker)
      else if code = pad then parse pad fin steps rest
      else
        match rest with
        | [] => ([], .malformed)
        | len :: body =>
          if body.length < len.toNat then ([], .malformed)
          else
            ((code, body.take len.toNat) :: (parse pad fin steps (body.drop len.toNat)).1,
              (parse pad fin steps (body.drop len.toNat)).2) := by
  cases rest <;> rfl

theorem parse_fin : parse pad fin (steps + 1) (fin :: rest) = ([], .marker) := by
  rw [parse_cons, if_pos rfl]

theorem parse_pad (h : pad ≠ fin) : parse pad fin (steps + 1) (pad :: rest) = parse pad fin steps rest := by
  rw [parse_cons, if_neg h, if_pos rfl]

/-- An item is read back, with what follows it. -/
theorem parse_item (hfin : code ≠ fin) (hpad : code ≠ pad) (hlen : value.length < 256) :
    parse pad fin (steps + 1) (item code value ++ rest) =
      ((code, value) :: (parse pad fin steps rest).1, (parse pad fin steps rest).2) := by
  have hbyte : (UInt8.ofNat value.length).toNat = value.length := by
    rw [UInt8.toNat_ofNat']
    exact Nat.mod_eq_of_lt hlen
  simp only [item, List.cons_append, parse_cons, if_neg hfin, if_neg hpad, hbyte]
  rw [if_neg (by simp), List.drop_left, List.take_left]

/-! ## The grammar -/

variable (pad fin) in
/-- The items of a list up to its end, and what ends it. -/
inductive Reads : List UInt8 → List (UInt8 × List UInt8) → Stop → Prop
  | exhausted : Reads [] [] .exhausted
  | marker (rest : List UInt8) : Reads (fin :: rest) [] .marker
  | pad {rest : List UInt8} {items : List (UInt8 × List UInt8)} {stop : Stop}
      (tail : Reads rest items stop) : Reads (pad :: rest) items stop
  | alone {code : UInt8} (hfin : code ≠ fin) (hpad : code ≠ pad) : Reads [code] [] .malformed
  | long {code len : UInt8} {body : List UInt8} (hfin : code ≠ fin) (hpad : code ≠ pad)
      (hlong : body.length < len.toNat) : Reads (code :: len :: body) [] .malformed
  | item {code : UInt8} {value rest : List UInt8} {items : List (UInt8 × List UInt8)} {stop : Stop}
      (hfin : code ≠ fin) (hpad : code ≠ pad) (hlen : value.length < 256)
      (tail : Reads rest items stop) : Reads (item code value ++ rest) ((code, value) :: items) stop

/-- A list has one reading, and the parse finds it when it has the steps. -/
theorem Reads.parse_eq (hne : pad ≠ fin) {bytes : List UInt8} {items : List (UInt8 × List UInt8)}
    {stop : Stop} (h : Reads pad fin bytes items stop) {steps : Nat} (hsteps : bytes.length ≤ steps) :
    parse pad fin steps bytes = (items, stop) := by
  induction h generalizing steps with
  | exhausted => cases steps <;> rfl
  | marker rest =>
    obtain ⟨n, rfl⟩ : ∃ n, steps = n + 1 := ⟨steps - 1, by rw [List.length_cons] at hsteps; omega⟩
    exact parse_fin
  | pad _ ih =>
    obtain ⟨n, rfl⟩ : ∃ n, steps = n + 1 := ⟨steps - 1, by rw [List.length_cons] at hsteps; omega⟩
    rw [parse_pad hne]
    exact ih (by rw [List.length_cons] at hsteps; omega)
  | alone hfin hpad =>
    obtain ⟨n, rfl⟩ : ∃ n, steps = n + 1 := ⟨steps - 1, by rw [List.length_cons] at hsteps; omega⟩
    rw [parse_cons, if_neg hfin, if_neg hpad]
  | long hfin hpad hlong =>
    obtain ⟨n, rfl⟩ : ∃ n, steps = n + 1 := ⟨steps - 1, by rw [List.length_cons] at hsteps; omega⟩
    rw [parse_cons, if_neg hfin, if_neg hpad]
    exact if_pos hlong
  | item hfin hpad hlen _ ih =>
    rw [List.length_append, length_item] at hsteps
    obtain ⟨n, rfl⟩ : ∃ n, steps = n + 1 := ⟨steps - 1, by omega⟩
    rw [parse_item hfin hpad hlen, ih (by omega)]

/-- The length of an item is a byte. -/
theorem Reads.length_lt {bytes : List UInt8} {items : List (UInt8 × List UInt8)} {stop : Stop}
    (h : Reads pad fin bytes items stop) : ∀ it ∈ items, it.2.length < 256 := by
  induction h with
  | exhausted | marker | alone | long => simp
  | pad _ ih => exact ih
  | item _ _ hlen _ ih =>
    intro it hit
    rcases List.mem_cons.mp hit with rfl | hit
    · exact hlen
    · exact ih it hit

/-- What is parsed in enough steps is a reading. -/
theorem parse_reads {bytes : List UInt8} {steps : Nat} (hsteps : bytes.length ≤ steps) :
    Reads pad fin bytes (parse pad fin steps bytes).1 (parse pad fin steps bytes).2 := by
  induction steps generalizing bytes with
  | zero =>
    obtain rfl := List.eq_nil_of_length_eq_zero (Nat.le_zero.mp hsteps)
    exact .exhausted
  | succ steps ih =>
    cases bytes with
    | nil => exact .exhausted
    | cons code rest =>
      rw [List.length_cons] at hsteps
      rw [parse_cons]
      split
      · next hfin =>
        rw [hfin]
        exact .marker rest
      next hfin =>
      split
      · next hpad =>
        rw [hpad]
        exact .pad (ih (by omega))
      next hpad =>
      cases rest with
      | nil => exact .alone hfin hpad
      | cons len body =>
        rw [List.length_cons] at hsteps
        simp only
        split
        · next hlong => exact .long hfin hpad hlong
        · next hfits =>
          have hlt := len.toNat_lt
          have hlen : (body.take len.toNat).length = len.toNat :=
            List.length_take_of_le (Nat.le_of_not_lt hfits)
          have hcut : code :: len :: body =
              Tlv.item code (body.take len.toNat) ++ body.drop len.toNat := by
            rw [Tlv.item, hlen, UInt8.ofNat_toNat, List.cons_append, List.cons_append,
              List.take_append_drop]
          rw [hcut]
          refine .item hfin hpad (by omega) (ih ?_)
          rw [List.length_drop]
          omega

/-- Items in front of a list are read first. -/
theorem Reads.items_append {its : List (UInt8 × List UInt8)}
    (hwf : ∀ it ∈ its, it.1 ≠ fin ∧ it.1 ≠ pad ∧ it.2.length < 256) {rest : List UInt8}
    {items : List (UInt8 × List UInt8)} {stop : Stop} (h : Reads pad fin rest items stop) :
    Reads pad fin ((its.flatMap fun it => Tlv.item it.1 it.2) ++ rest) (its ++ items) stop := by
  induction its with
  | nil => exact h
  | cons it its ih =>
    obtain ⟨hfin, hpad, hlen⟩ := hwf it List.mem_cons_self
    rw [List.flatMap_cons, List.append_assoc]
    exact .item hfin hpad hlen (ih fun it hit => hwf it (List.mem_cons_of_mem _ hit))

/-- Padding in front of the end code holds no item. -/
theorem reads_padding (n : Nat) : Reads pad fin (List.replicate n pad ++ [fin]) [] .marker := by
  induction n with
  | zero => exact .marker []
  | succ n ih => exact .pad ih

/-- Nor does it when it is cut short. -/
theorem reads_take_padding (n room : Nat) :
    ∃ stop, Reads pad fin ((List.replicate n pad ++ [fin]).take room) [] stop := by
  induction n generalizing room with
  | zero =>
    cases room with
    | zero => exact ⟨_, .exhausted⟩
    | succ room => exact ⟨_, .marker _⟩
  | succ n ih =>
    cases room with
    | zero => exact ⟨_, .exhausted⟩
    | succ room =>
      obtain ⟨stop, h⟩ := ih room
      exact ⟨stop, .pad h⟩

/-! ## Lists of fields -/

/-- What a list is written from: padding, or an item. -/
inductive Field where
  | pad
  | item (code : UInt8) (value : List UInt8)
  deriving DecidableEq, Repr

/-- An item's code is not one of the two that stand alone, and its length fits its byte. -/
def Field.WellFormed (pad fin : UInt8) : Field → Prop
  | .pad => True
  | .item code value => code ≠ fin ∧ code ≠ pad ∧ value.length < 256

def Field.bytes (pad : UInt8) : Field → List UInt8
  | .pad => [pad]
  | .item code value => Tlv.item code value

def Field.item? : Field → Option (UInt8 × List UInt8)
  | .pad => none
  | .item code value => some (code, value)

/-- The items of a list of fields. -/
def items (fields : List Field) : List (UInt8 × List UInt8) := fields.filterMap Field.item?

theorem length_flatMap_bytes (pad : UInt8) (fields : List Field) :
    fields.length ≤ (fields.flatMap (Field.bytes pad)).length := by
  induction fields with
  | nil => exact Nat.le_refl 0
  | cons f fields ih =>
    have hone : 1 ≤ (f.bytes pad).length := by
      cases f <;> simp [Field.bytes, Tlv.item]
    rw [List.flatMap_cons, List.length_append, List.length_cons]
    omega

/-- A well-formed list parses to its items, whatever follows its end. -/
theorem parse_fields (hpad : pad ≠ fin) {fields : List Field}
    (hwf : ∀ f ∈ fields, f.WellFormed pad fin) (hsteps : fields.length < steps) :
    parse pad fin steps (fields.flatMap (Field.bytes pad) ++ fin :: rest) = (items fields, .marker) := by
  induction fields generalizing steps with
  | nil =>
    obtain ⟨n, rfl⟩ := Nat.exists_eq_add_of_lt hsteps
    exact parse_fin
  | cons f fields ih =>
    obtain ⟨n, rfl⟩ : ∃ n, steps = n + 1 := ⟨steps - 1, by rw [List.length_cons] at hsteps; omega⟩
    have htail := ih (fun g hg => hwf g (List.mem_cons_of_mem f hg))
      (show fields.length < n by rw [List.length_cons] at hsteps; omega)
    have hf := hwf f List.mem_cons_self
    rw [List.flatMap_cons, List.append_assoc]
    cases f with
    | pad => exact (parse_pad hpad).trans htail
    | item code value =>
      obtain ⟨hfin, hcode, hlen⟩ := hf
      rw [Field.bytes, parse_item hfin hcode hlen, htail]
      rfl

/-! ## Loops over the bytes -/

/-- The parse from an index on, by the tests a loop over the bytes makes. -/
theorem parse_drop (bytes : List UInt8) (i : Nat) :
    parse pad fin (steps + 1) (bytes.drop i) =
      if i ≥ bytes.length then ([], .exhausted)
      else if bytes.getD i 0 = fin then ([], .marker)
      else if bytes.getD i 0 = pad then parse pad fin steps (bytes.drop (i + 1))
      else if i + 1 ≥ bytes.length then ([], .malformed)
      else if i + 2 + (bytes.getD (i + 1) 0).toNat > bytes.length then ([], .malformed)
      else
        ((bytes.getD i 0, (bytes.drop (i + 2)).take (bytes.getD (i + 1) 0).toNat) ::
            (parse pad fin steps (bytes.drop (i + 2 + (bytes.getD (i + 1) 0).toNat))).1,
          (parse pad fin steps (bytes.drop (i + 2 + (bytes.getD (i + 1) 0).toNat))).2) := by
  by_cases hi : i ≥ bytes.length
  · rw [if_pos hi, List.drop_eq_nil_of_le hi]
    rfl
  have hlt : i < bytes.length := Nat.lt_of_not_le hi
  have hdrop : bytes.drop i = bytes.getD i 0 :: bytes.drop (i + 1) := by
    rw [List.drop_eq_getElem_cons hlt, List.getD_eq_getElem _ _ hlt]
  rw [if_neg hi, hdrop, parse_cons]
  by_cases hone : i + 1 ≥ bytes.length
  · rw [if_pos hone, List.drop_eq_nil_of_le hone]
  have hlt' : i + 1 < bytes.length := Nat.lt_of_not_le hone
  have hdrop' : bytes.drop (i + 1) = bytes.getD (i + 1) 0 :: bytes.drop (i + 2) := by
    rw [List.drop_eq_getElem_cons hlt', List.getD_eq_getElem _ _ hlt']
  have hover : (bytes.drop (i + 2)).length < (bytes.getD (i + 1) 0).toNat ↔
      i + 2 + (bytes.getD (i + 1) 0).toNat > bytes.length := by
    rw [List.length_drop]
    omega
  rw [if_neg hone, hdrop']
  simp only [hover, List.drop_drop]

section Walk

variable {ρ : Type*} (step : UInt8 → List UInt8 → Option ρ) (atEnd broken : ρ)

variable (pad fin) in
/-- A loop over the items by an index. It returns what `step` says at the first item where it says
anything, `atEnd` at the end code, and `broken` where the bytes run out. -/
def walk (bytes : List UInt8) : Nat → Nat → ρ
  | 0, _ => broken
  | steps + 1, i =>
    if i ≥ bytes.length then broken
    else if bytes.getD i 0 = fin then atEnd
    else if bytes.getD i 0 = pad then walk bytes steps (i + 1)
    else if i + 1 ≥ bytes.length then broken
    else
      let len := (bytes.getD (i + 1) 0).toNat
      if i + 2 + len > bytes.length then broken
      else
        match step (bytes.getD i 0) ((bytes.drop (i + 2)).take len) with
        | some r => r
        | none => walk bytes steps (i + 2 + len)

/-- What the loop makes of a parsed list. -/
def outcome (parsed : List (UInt8 × List UInt8) × Stop) : ρ :=
  (parsed.1.findSome? fun it => step it.1 it.2).getD
    (if parsed.2 = .marker then atEnd else broken)

/-- **The loop sees the items of the parse.** -/
theorem walk_eq (bytes : List UInt8) (steps i : Nat) :
    walk pad fin step atEnd broken bytes steps i =
      outcome step atEnd broken (parse pad fin steps (bytes.drop i)) := by
  induction steps generalizing i with
  | zero => rfl
  | succ steps ih =>
    rw [walk, parse_drop]
    split_ifs with hi hfin hpad hone hover
    · rfl
    · rfl
    · exact ih (i + 1)
    · rfl
    · simp only [hover, if_true]
      rfl
    · simp only [hover, if_false, ih, outcome, List.findSome?_cons]
      cases step (bytes.getD i 0) ((bytes.drop (i + 2)).take (bytes.getD (i + 1) 0).toNat) <;> rfl

/-- A loop that returns at the first item of a code. -/
theorem outcome_first (code : UInt8) (f : List UInt8 → ρ)
    (parsed : List (UInt8 × List UInt8) × Stop) :
    outcome (fun c value => if c = code then some (f value) else none) atEnd broken parsed =
      ((parsed.1.find? fun it => it.1 = code).map fun it => f it.2).getD
        (if parsed.2 = .marker then atEnd else broken) := by
  have hfirst : (parsed.1.findSome? fun it => if it.1 = code then some (f it.2) else none) =
      (parsed.1.find? fun it => it.1 = code).map fun it => f it.2 := by
    induction parsed.1 with
    | nil => rfl
    | cons it items ih =>
      rw [List.findSome?_cons, List.find?_cons]
      by_cases hcode : it.1 = code
      · simp [hcode]
      · simp [hcode, ih]
  rw [outcome, hfirst]

variable (pad fin) in
/-- The same loop where it may have to go on: `none` is a loop that is not done in the steps it has. -/
def walkFuel (bytes : List UInt8) : Nat → Nat → Option ρ
  | 0, _ => none
  | steps + 1, i =>
    if i ≥ bytes.length then some broken
    else if bytes.getD i 0 = fin then some atEnd
    else if bytes.getD i 0 = pad then walkFuel bytes steps (i + 1)
    else if i + 1 ≥ bytes.length then some broken
    else
      let len := (bytes.getD (i + 1) 0).toNat
      if i + 2 + len > bytes.length then some broken
      else
        match step (bytes.getD i 0) ((bytes.drop (i + 2)).take len) with
        | some r => some r
        | none => walkFuel bytes steps (i + 2 + len)

/-- **The loop ends**: every turn takes it a byte further. -/
theorem walkFuel_eq (bytes : List UInt8) {steps i : Nat} (hsteps : bytes.length < i + steps)
    (hi : i ≤ bytes.length) :
    walkFuel pad fin step atEnd broken bytes steps i =
      some (walk pad fin step atEnd broken bytes steps i) := by
  induction steps generalizing i with
  | zero => omega
  | succ steps ih =>
    rw [walkFuel, walk]
    split
    · rfl
    split
    · rfl
    split
    · exact ih (by omega) (by omega)
    split
    · rfl
    dsimp only
    split
    · rfl
    cases step (bytes.getD i 0) ((bytes.drop (i + 2)).take (bytes.getD (i + 1) 0).toNat) with
    | some r => rfl
    | none => exact ih (by omega) (by omega)

end Walk

end Tc8Harness.Tlv
