import Tc8Harness.Lib.CheckedAccess

/-!
# Option areas

An area of options in the manner of the Internet headers: a byte that stands alone as a filler, a byte
that ends the list, and options of a kind, a length that counts its kind and itself, and data. `Reads` is
the grammar: the items an area begins with, and what is left. `next` finds the first item, so a reading
that stops where there is no next item is the longest one (`Reads.continues_of_stuck`), and a loop over the
area by an index follows that one (`walk_spec`) without a look outside the area (`walkChecked_eq`).
-/

namespace Tc8Harness.OptionArea

open CheckedAccess

inductive Item where
  | nop
  | opt (kind : UInt8) (data : List UInt8)
  deriving DecidableEq, Repr

variable (eol nop : UInt8)

/-- A kind that does not stand alone, and a length that fits its byte. -/
def Item.WellFormed : Item → Prop
  | .nop => True
  | .opt kind data => kind ≠ eol ∧ kind ≠ nop ∧ data.length + 2 < 256

def Item.bytes : Item → List UInt8
  | .nop => [nop]
  | .opt kind data => kind :: UInt8.ofNat (data.length + 2) :: data

/-- The area begins with the items, and the rest is left. -/
inductive Reads : List UInt8 → List Item → List UInt8 → Prop
  | nil {rest : List UInt8} : Reads rest [] rest
  | cons {item : Item} {area : List UInt8} {items : List Item} {rest : List UInt8}
      (wellFormed : item.WellFormed eol nop) (tail : Reads area items rest) :
      Reads (item.bytes nop ++ area) (item :: items) rest

/-- The items fill the area, or the end of the list follows them. -/
def Accepts (area : List UInt8) : Prop :=
  ∃ items, Reads eol nop area items [] ∨ ∃ padding, Reads eol nop area items (eol :: padding)

/-- The items of the longest well-formed prefix of the area. -/
structure Longest (area : List UInt8) (items : List Item) : Prop where
  reads : ∃ rest, Reads eol nop area items rest
  greatest : ∀ items' rest', Reads eol nop area items' rest' → items' <+: items

/-- The first item of an area, and what follows it. -/
def next : List UInt8 → Option (Item × List UInt8)
  | [] => none
  | kind :: rest =>
    if kind = eol then none
    else if kind = nop then some (.nop, rest)
    else
      match rest with
      | [] => none
      | len :: body =>
        if len.toNat < 2 ∨ body.length + 2 < len.toNat then none
        else some (.opt kind (body.take (len.toNat - 2)), body.drop (len.toNat - 2))

variable {eol nop} {area rest : List UInt8} {item : Item} {items : List Item}

theorem next_cons (kind : UInt8) (rest : List UInt8) :
    next eol nop (kind :: rest) =
      if kind = eol then none
      else if kind = nop then some (.nop, rest)
      else
        match rest with
        | [] => none
        | len :: body =>
          if len.toNat < 2 ∨ body.length + 2 < len.toNat then none
          else some (.opt kind (body.take (len.toNat - 2)), body.drop (len.toNat - 2)) := by
  cases rest <;> rfl

/-- An item at the front of an area is the next one. -/
theorem next_bytes (hne : nop ≠ eol) (h : item.WellFormed eol nop) :
    next eol nop (item.bytes nop ++ area) = some (item, area) := by
  cases item with
  | nop => rw [Item.bytes, List.singleton_append, next_cons, if_neg hne, if_pos rfl]
  | opt kind data =>
    obtain ⟨heol, hnop, hlen⟩ := h
    have hbyte : (UInt8.ofNat (data.length + 2)).toNat = data.length + 2 := by
      rw [UInt8.toNat_ofNat']
      exact Nat.mod_eq_of_lt hlen
    simp only [Item.bytes, List.cons_append, next_cons, if_neg heol, if_neg hnop, hbyte,
      Nat.add_sub_cancel, List.take_left, List.drop_left]
    rw [if_neg (by rw [List.length_append]; omega)]

/-- What `next` finds is at the front of the area. -/
theorem bytes_of_next (h : next eol nop area = some (item, rest)) :
    item.WellFormed eol nop ∧ area = item.bytes nop ++ rest := by
  cases area with
  | nil => nomatch h
  | cons kind tail =>
    rw [next_cons] at h
    split at h
    · nomatch h
    · next heol =>
      split at h
      · next hnop =>
        obtain ⟨rfl, rfl⟩ := Prod.mk.inj (Option.some.inj h)
        exact ⟨trivial, by rw [hnop]; rfl⟩
      · next hnop =>
        cases tail with
        | nil => nomatch h
        | cons len body =>
          dsimp only at h
          split at h
          · nomatch h
          · next hfits =>
            obtain ⟨rfl, rfl⟩ := Prod.mk.inj (Option.some.inj h)
            have hlt := len.toNat_lt
            have hlength : (body.take (len.toNat - 2)).length + 2 = len.toNat := by
              rw [List.length_take]
              omega
            refine ⟨⟨heol, hnop, by omega⟩, ?_⟩
            rw [Item.bytes, hlength, UInt8.ofNat_toNat, List.cons_append, List.cons_append,
              List.take_append_drop]

theorem next_eol (padding : List UInt8) : next eol nop (eol :: padding) = none := by
  rw [next_cons, if_pos rfl]

/-! ## Readings -/

theorem Reads.area_eq (h : Reads eol nop area items rest) :
    area = items.flatMap (Item.bytes nop) ++ rest := by
  induction h with
  | nil => rfl
  | cons _ _ ih => rw [ih, List.flatMap_cons, List.append_assoc]

/-- A reading that stops for want of a next item is the longest: any other one is a part of it. -/
theorem Reads.continues_of_stuck (hne : nop ≠ eol) (h : Reads eol nop area items rest)
    (hstuck : next eol nop rest = none) {items' : List Item} {rest' : List UInt8}
    (h' : Reads eol nop area items' rest') :
    ∃ items'', items = items' ++ items'' ∧ Reads eol nop rest' items'' rest := by
  induction h' generalizing items with
  | nil => exact ⟨items, rfl, h⟩
  | cons hwf' _ ih =>
    generalize harea : Item.bytes nop _ ++ _ = area at h
    cases h with
    | nil =>
      rw [← harea, next_bytes hne hwf'] at hstuck
      nomatch hstuck
    | cons hwf tail =>
      have hfirst := (next_bytes hne hwf').symm.trans ((congrArg (next eol nop) harea).trans
        (next_bytes hne hwf))
      obtain ⟨rfl, rfl⟩ := Prod.mk.inj (Option.some.inj hfirst)
      obtain ⟨items'', rfl, hrest⟩ := ih tail
      exact ⟨items'', rfl, hrest⟩

theorem Reads.longest (hne : nop ≠ eol) (h : Reads eol nop area items rest)
    (hstuck : next eol nop rest = none) : Longest eol nop area items := by
  refine ⟨⟨rest, h⟩, fun items' rest' h' => ?_⟩
  obtain ⟨items'', heq, -⟩ := h.continues_of_stuck hne hstuck h'
  exact ⟨items'', heq.symm⟩

theorem Longest.unique {items' : List Item} (h : Longest eol nop area items)
    (h' : Longest eol nop area items') : items = items' := by
  obtain ⟨rest, hreads⟩ := h.reads
  obtain ⟨rest', hreads'⟩ := h'.reads
  have hle := h'.greatest items rest hreads
  exact hle.eq_of_length_le (h.greatest items' rest' hreads').length_le

/-- A second stuck reading of an area is the first. -/
theorem Reads.unique (hne : nop ≠ eol) (h : Reads eol nop area items rest)
    (hstuck : next eol nop rest = none) {items' : List Item} {rest' : List UInt8}
    (h' : Reads eol nop area items' rest') (hstuck' : next eol nop rest' = none) :
    items' = items ∧ rest' = rest := by
  obtain ⟨items'', heq, hrest⟩ := h.continues_of_stuck hne hstuck h'
  cases hrest with
  | nil => exact ⟨by rw [heq, List.append_nil], rfl⟩
  | cons hwf _ =>
    rw [next_bytes hne hwf] at hstuck'
    nomatch hstuck'

/-- Whether an area is accepted shows where its longest reading stops. -/
theorem Reads.accepts_iff (hne : nop ≠ eol) (h : Reads eol nop area items rest)
    (hstuck : next eol nop rest = none) :
    Accepts eol nop area ↔ rest = [] ∨ ∃ padding, rest = eol :: padding := by
  constructor
  · rintro ⟨items', hfilled | ⟨padding, hended⟩⟩
    · exact .inl (h.unique hne hstuck hfilled rfl).2.symm
    · exact .inr ⟨padding, (h.unique hne hstuck hended (next_eol padding)).2.symm⟩
  · rintro (rfl | ⟨padding, rfl⟩)
    · exact ⟨items, .inl h⟩
    · exact ⟨items, .inr ⟨padding, h⟩⟩

/-- What is said of a reading up to an end of the list is said of the longest one. -/
theorem Reads.exists_ended_iff (hne : nop ≠ eol) (h : Reads eol nop area items rest)
    (hstuck : next eol nop rest = none) (P : List Item → List UInt8 → Prop) :
    (∃ items' padding, Reads eol nop area items' (eol :: padding) ∧ P items' padding) ↔
      ∃ padding, rest = eol :: padding ∧ P items padding := by
  constructor
  · rintro ⟨items', padding, hended, hp⟩
    obtain ⟨rfl, heq⟩ := h.unique hne hstuck hended (next_eol padding)
    exact ⟨padding, heq.symm, hp⟩
  · rintro ⟨padding, rfl, hp⟩
    exact ⟨items, padding, h, hp⟩

/-! ## Loops over the area -/

section Walk

variable {σ ρ : Type} (take : σ → UInt8 → List UInt8 → σ) (filled broken : σ → ρ)
  (ended : σ → Nat → ρ)

variable (eol nop) in
/-- A loop over the options by an index. It takes each option in turn, and ends at the end of the area, at
the end of the list, or at an option that does not fit. -/
def walk (p : List UInt8) (stop : Nat) : Nat → Nat → σ → ρ
  | 0, _, s => filled s
  | steps + 1, i, s =>
    if i ≥ stop then filled s
    else if p.getD i 0 = eol then ended s i
    else if p.getD i 0 = nop then walk p stop steps (i + 1) s
    else if i + 1 ≥ stop then broken s
    else
      let len := (p.getD (i + 1) 0).toNat
      if len < 2 ∨ i + len > stop then broken s
      else walk p stop steps (i + len) (take s (p.getD i 0) ((p.drop (i + 2)).take (len - 2)))

/-- What an item adds to the loop's state. -/
def Item.taken (s : σ) : Item → σ
  | .nop => s
  | .opt kind data => take s kind data

variable (eol) in
/-- How the loop ends, by what its reading leaves. -/
def outcome (s : σ) (stop : Nat) (rest : List UInt8) : ρ :=
  match rest with
  | [] => filled s
  | byte :: padding => if byte = eol then ended s (stop - (padding.length + 1)) else broken s

theorem drop_take_cons {p : List UInt8} {stop i : Nat} (hstop : stop ≤ p.length) (hi : i < stop) :
    (p.take stop).drop i = p.getD i 0 :: (p.take stop).drop (i + 1) := by
  have hlt : i < (p.take stop).length := by
    rw [List.length_take]
    omega
  rw [List.drop_eq_getElem_cons hlt, List.getElem_take, List.getD_eq_getElem]

theorem drop_take_eq_nil (p : List UInt8) {stop i : Nat} (h : stop ≤ i) : (p.take stop).drop i = [] := by
  apply List.drop_eq_nil_of_le
  rw [List.length_take]
  omega

theorem length_drop_take {p : List UInt8} {stop : Nat} (hstop : stop ≤ p.length) (i : Nat) :
    ((p.take stop).drop i).length = stop - i := by
  rw [List.length_drop, List.length_take_of_le hstop]

/-- An option that fits, at an index. -/
theorem next_drop {p : List UInt8} {stop i : Nat} (hstop : stop ≤ p.length) (hi : i + 1 < stop)
    (heol : p.getD i 0 ≠ eol) (hnop : p.getD i 0 ≠ nop) :
    next eol nop ((p.take stop).drop i) =
      if (p.getD (i + 1) 0).toNat < 2 ∨ i + (p.getD (i + 1) 0).toNat > stop then none
      else some (.opt (p.getD i 0) ((p.drop (i + 2)).take ((p.getD (i + 1) 0).toNat - 2)),
        (p.take stop).drop (i + (p.getD (i + 1) 0).toNat)) := by
  rw [drop_take_cons hstop (by omega), drop_take_cons hstop hi, next_cons, if_neg heol, if_neg hnop]
  dsimp only
  rw [length_drop_take hstop, List.drop_drop, List.drop_take, List.take_take]
  generalize (p.getD (i + 1) 0).toNat = len
  by_cases hfits : len < 2 ∨ i + len > stop
  · rw [if_pos (by omega), if_pos hfits]
  · have hmin : min (len - 2) (stop - (i + 2)) = len - 2 := by omega
    have hskip : i + 2 + (len - 2) = i + len := by omega
    rw [if_neg (by omega), if_neg hfits, hmin, hskip]

variable (eol nop) in
/-- **The loop follows the longest reading** of the area from its index to the end. -/
theorem walk_spec {p : List UInt8} {stop steps i : Nat} (hstop : stop ≤ p.length)
    (hsteps : stop ≤ i + steps) (s : σ) :
    ∃ items rest, Reads eol nop ((p.take stop).drop i) items rest ∧ next eol nop rest = none ∧
      walk eol nop take filled broken ended p stop steps i s =
        outcome eol filled broken ended (items.foldl (Item.taken take) s) stop rest := by
  induction steps generalizing i s with
  | zero =>
    rw [drop_take_eq_nil p (by omega : stop ≤ i)]
    exact ⟨[], [], .nil, rfl, rfl⟩
  | succ steps ih =>
    rw [walk]
    split
    · next hi =>
      rw [drop_take_eq_nil p hi]
      exact ⟨[], [], .nil, rfl, rfl⟩
    · next hi =>
      have harea := drop_take_cons hstop (Nat.lt_of_not_le hi)
      split
      · next heol =>
        refine ⟨[], _, .nil, by rw [harea, heol, next_eol], ?_⟩
        have hpos : stop - (((p.take stop).drop (i + 1)).length + 1) = i := by
          rw [length_drop_take hstop]
          omega
        rw [harea, outcome, if_pos heol, hpos]
        rfl
      · next heol =>
        split
        · next hnop =>
          obtain ⟨items, rest, hreads, hstuck, hwalk⟩ := ih (i := i + 1) (by omega) s
          refine ⟨.nop :: items, rest, ?_, hstuck, hwalk⟩
          rw [harea, hnop]
          exact .cons (show Item.WellFormed eol nop .nop from trivial) hreads
        · next hnop =>
          -- An option: the loop stops where `next` does.
          have hbroken : outcome eol filled broken ended s stop ((p.take stop).drop i) = broken s := by
            rw [harea, outcome, if_neg heol]
          split
          · next hone =>
            refine ⟨[], _, .nil, ?_, hbroken.symm⟩
            rw [harea, drop_take_eq_nil p hone, next_cons, if_neg heol, if_neg hnop]
          · next hone =>
            have hnext := next_drop hstop (Nat.lt_of_not_le hone) heol hnop
            dsimp only
            split
            · next hfits =>
              rw [if_pos hfits] at hnext
              exact ⟨[], _, .nil, hnext, hbroken.symm⟩
            · next hfits =>
              rw [if_neg hfits] at hnext
              obtain ⟨hwf, hcut⟩ := bytes_of_next hnext
              obtain ⟨items, rest, hreads, hstuck, hwalk⟩ :=
                ih (i := i + (p.getD (i + 1) 0).toNat) (by omega)
                  (take s (p.getD i 0) ((p.drop (i + 2)).take ((p.getD (i + 1) 0).toNat - 2)))
              refine ⟨.opt _ _ :: items, rest, ?_, hstuck, hwalk⟩
              rw [hcut]
              exact .cons hwf hreads

variable (takeAt : σ → UInt8 → Nat → Nat → Option σ) (endedAt : σ → Nat → Option ρ)

variable (eol nop) in
/-- The loop on the bytes up to `stop` alone: `none` is an access outside them, or a loop that goes on. -/
def walkChecked (area : List UInt8) (stop : Nat) : Nat → Nat → σ → Option ρ
  | 0, _, _ => none
  | steps + 1, i, s =>
    if i ≥ stop then some (filled s)
    else do
      let kind ← load area i
      if kind = eol then endedAt s i
      else if kind = nop then walkChecked area stop steps (i + 1) s
      else if i + 1 ≥ stop then some (broken s)
      else do
        let len ← load area (i + 1)
        if len.toNat < 2 ∨ i + len.toNat > stop then some (broken s)
        else do
          let s ← takeAt s kind i len.toNat
          walkChecked area stop steps (i + len.toNat) s

theorem load_take {p : List UInt8} {stop i : Nat} (hstop : stop ≤ p.length) (hi : i < stop) :
    load (p.take stop) i = some (p.getD i 0) := by
  rw [load, List.getElem?_take_of_lt hi]
  exact load_eq (hi.trans_le hstop)

/-- **The loop ends, and stays within the area**, if what it does at an option and at the end of the list
does. -/
theorem walkChecked_eq {p : List UInt8} {stop steps i : Nat} (hstop : stop ≤ p.length)
    (hi : i ≤ stop) (hsteps : stop < i + steps) (s : σ)
    (htake : ∀ s kind i len, 2 ≤ len → i + len ≤ stop →
      takeAt s kind i len = some (take s kind ((p.drop (i + 2)).take (len - 2))))
    (hended : ∀ s, ∀ i < stop, endedAt s i = some (ended s i)) :
    walkChecked eol nop filled broken takeAt endedAt (p.take stop) stop steps i s =
      some (walk eol nop take filled broken ended p stop steps i s) := by
  induction steps generalizing i s with
  | zero => omega
  | succ steps ih =>
    rw [walkChecked, walk]
    split
    · rfl
    · next hmore =>
      have hlt := Nat.lt_of_not_le hmore
      rw [bind_of_eq_some (load_take hstop hlt)]
      split
      · exact hended s i hlt
      · split
        · exact ih (by omega) (by omega) s
        · split
          · rfl
          · next hone =>
            rw [bind_of_eq_some (load_take hstop (Nat.lt_of_not_le hone))]
            dsimp only
            split
            · rfl
            · next hfits =>
              rw [bind_of_eq_some (htake s _ i _ (by omega) (by omega))]
              exact ih (by omega) (by omega) _

end Walk

end Tc8Harness.OptionArea
