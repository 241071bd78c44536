import Mathlib.Data.List.Basic
import Mathlib.Data.List.TakeWhile
import Mathlib.Data.Nat.Digits.Lemmas
import Mathlib.Tactic.Basic

/-!
# JSON texts

The grammar of RFC 8259 over bytes, as a relation between a text and the value it denotes, and a reader
for it. A byte from 0x80 on is a character of its own inside a string, and a string denotes the codes of
its characters, so that an escape of four hex digits is one code. A number denotes its text.

`readValue_of_value` is completeness: the reader returns the value of every text of the grammar, whatever
follows it. A text therefore denotes one value at most (`JsonText.unique`).
-/

namespace Tc8Harness.Rfc8259

inductive Json where
  | null
  | bool (b : Bool)
  | number (text : List UInt8)
  | string (chars : List UInt16)
  | array (items : List Json)
  | object (members : List (List UInt16 × Json))

/-! ## Characters -/

def isWs (b : UInt8) : Bool := b == 0x20 || b == 0x09 || b == 0x0A || b == 0x0D

def isDigit (b : UInt8) : Bool := decide (0x30 ≤ b) && decide (b ≤ 0x39)

/-- The codes of the escapes of two characters. -/
def escapeCode (b : UInt8) : Option UInt16 :=
  if b = 0x22 then some 0x22
  else if b = 0x5C then some 0x5C
  else if b = 0x2F then some 0x2F
  else if b = 0x62 then some 0x08
  else if b = 0x66 then some 0x0C
  else if b = 0x6E then some 0x0A
  else if b = 0x72 then some 0x0D
  else if b = 0x74 then some 0x09
  else none

def hexValue (b : UInt8) : Option UInt16 :=
  if isDigit b then some (b.toUInt16 - 0x30)
  else if 0x61 ≤ b ∧ b ≤ 0x66 then some (b.toUInt16 - 0x61 + 10)
  else if 0x41 ≤ b ∧ b ≤ 0x46 then some (b.toUInt16 - 0x41 + 10)
  else none

/-- The code with another hex digit behind it. -/
def hexPush (code : UInt16) (b : UInt8) : Option UInt16 := (hexValue b).map (code * 16 + ·)

def hexCode (digits : List UInt8) : Option UInt16 := digits.foldlM hexPush 0

/-- The body of a string and the codes of its characters. -/
inductive Chars : List UInt8 → List UInt16 → Prop
  | nil : Chars [] []
  | plain {b : UInt8} {t : List UInt8} {u : List UInt16} (hctl : 0x20 ≤ b) (hquote : b ≠ 0x22)
      (hslash : b ≠ 0x5C) (h : Chars t u) : Chars (b :: t) (b.toUInt16 :: u)
  | escape {b : UInt8} {code : UInt16} {t : List UInt8} {u : List UInt16}
      (hcode : escapeCode b = some code) (h : Chars t u) : Chars (0x5C :: b :: t) (code :: u)
  | unicode {digits : List UInt8} {code : UInt16} {t : List UInt8} {u : List UInt16}
      (hlen : digits.length = 4) (hcode : hexCode digits = some code) (h : Chars t u) :
      Chars (0x5C :: 0x75 :: (digits ++ t)) (code :: u)

theorem Chars.append {t t' : List UInt8} {u u' : List UInt16} (h : Chars t u) (h' : Chars t' u') :
    Chars (t ++ t') (u ++ u') := by
  induction h with
  | nil => exact h'
  | plain hctl hquote hslash _ ih => exact .plain hctl hquote hslash ih
  | escape hcode _ ih => exact .escape hcode ih
  | unicode hlen hcode _ ih =>
    rw [List.cons_append, List.cons_append, List.append_assoc]
    exact .unicode hlen hcode ih

/-! ## Numbers -/

/-- Where a number stands that has been read up to here. -/
inductive NumState where
  | start
  | minus
  | zero
  | int
  | dot
  | frac
  | mark
  | sign
  | exponent
  deriving DecidableEq, Repr

namespace NumState

def lead (b : UInt8) : Option NumState :=
  if b = 0x30 then some .zero else if isDigit b then some .int else none

def afterInt (b : UInt8) : Option NumState :=
  if b = 0x2E then some .dot else if b = 0x65 ∨ b = 0x45 then some .mark else none

def next : NumState → UInt8 → Option NumState
  | .start, b => if b = 0x2D then some .minus else lead b
  | .minus, b => lead b
  | .zero, b => afterInt b
  | .int, b => if isDigit b then some .int else afterInt b
  | .dot, b => if isDigit b then some .frac else none
  | .frac, b =>
    if isDigit b then some .frac else if b = 0x65 ∨ b = 0x45 then some .mark else none
  | .mark, b =>
    if b = 0x2B ∨ b = 0x2D then some .sign else if isDigit b then some .exponent else none
  | .sign, b => if isDigit b then some .exponent else none
  | .exponent, b => if isDigit b then some .exponent else none

def accepting : NumState → Bool
  | .zero | .int | .frac | .exponent => true
  | _ => false

def run (q : NumState) (t : List UInt8) : Option NumState := t.foldlM next q

end NumState

def IsNumber (t : List UInt8) : Prop := ∃ q, NumState.start.run t = some q ∧ q.accepting = true

/-! ## Values -/

def nullText : List UInt8 := [0x6E, 0x75, 0x6C, 0x6C]
def trueText : List UInt8 := [0x74, 0x72, 0x75, 0x65]
def falseText : List UInt8 := [0x66, 0x61, 0x6C, 0x73, 0x65]

/-- Texts with commas between them. -/
def separated : List (List UInt8) → List UInt8
  | [] => []
  | t :: ts => t ++ ts.flatMap (0x2C :: ·)

def AllWs (t : List UInt8) : Prop := ∀ b ∈ t, isWs b = true

/-- A value in an array or behind a colon, with the blanks around it. -/
structure Item where
  before : List UInt8 := []
  text : List UInt8
  after : List UInt8 := []
  value : Json

def Item.full (it : Item) : List UInt8 := it.before ++ it.text ++ it.after

structure Item.Spaced (it : Item) : Prop where
  before : AllWs it.before
  after : AllWs it.after

/-- A member of an object, with the blanks before its name and before its colon. -/
structure Member where
  before : List UInt8 := []
  name : List UInt8
  chars : List UInt16
  gap : List UInt8 := []
  item : Item

def Member.full (m : Member) : List UInt8 :=
  m.before ++ 0x22 :: (m.name ++ 0x22 :: (m.gap ++ 0x3A :: m.item.full))

structure Member.Spaced (m : Member) : Prop where
  before : AllWs m.before
  gap : AllWs m.gap
  item : m.item.Spaced

/-- The text is a value, and denotes it. -/
inductive Value : List UInt8 → Json → Prop
  | null : Value nullText .null
  | true : Value trueText (.bool true)
  | false : Value falseText (.bool false)
  | number {t : List UInt8} (h : IsNumber t) : Value t (.number t)
  | string {t : List UInt8} {u : List UInt16} (h : Chars t u) : Value (0x22 :: (t ++ [0x22])) (.string u)
  | emptyArray {blank : List UInt8} (h : AllWs blank) : Value (0x5B :: (blank ++ [0x5D])) (.array [])
  | array {items : List Item} (hne : items ≠ []) (hspaced : ∀ it ∈ items, it.Spaced)
      (h : ∀ it ∈ items, Value it.text it.value) :
      Value (0x5B :: (separated (items.map Item.full) ++ [0x5D])) (.array (items.map Item.value))
  | emptyObject {blank : List UInt8} (h : AllWs blank) : Value (0x7B :: (blank ++ [0x7D])) (.object [])
  | object {members : List Member} (hne : members ≠ []) (hspaced : ∀ m ∈ members, m.Spaced)
      (hname : ∀ m ∈ members, Chars m.name m.chars)
      (h : ∀ m ∈ members, Value m.item.text m.item.value) :
      Value (0x7B :: (separated (members.map Member.full) ++ [0x7D]))
        (.object (members.map fun m => (m.chars, m.item.value)))

/-- A whole text: one value, with blanks around it. -/
def JsonText (text : List UInt8) (v : Json) : Prop :=
  ∃ it : Item, it.Spaced ∧ Value it.text it.value ∧ text = it.full ∧ v = it.value

/-! ## The reader -/

def skipWs (t : List UInt8) : List UInt8 := t.dropWhile isWs

/-- Where a string stands that has been read up to here: `hex` holds how many digits come after the
next one and the code so far. -/
inductive StringState where
  | plain
  | slash
  | hex (left : Nat) (code : UInt16)

/-- The codes of a string's body, up to its closing quote. -/
def readString : StringState → List UInt8 → Option (List UInt16 × List UInt8)
  | _, [] => none
  | .plain, b :: t =>
    if b = 0x22 then some ([], t)
    else if b = 0x5C then readString .slash t
    else if b < 0x20 then none
    else (readString .plain t).map fun r => (b.toUInt16 :: r.1, r.2)
  | .slash, b :: t =>
    if b = 0x75 then readString (.hex 3 0) t
    else
      match escapeCode b with
      | none => none
      | some code => (readString .plain t).map fun r => (code :: r.1, r.2)
  | .hex left code, b :: t =>
    match hexPush code b with
    | none => none
    | some code =>
      match left with
      | 0 => (readString .plain t).map fun r => (code :: r.1, r.2)
      | left + 1 => readString (.hex left code) t

/-- The longest number at the head. -/
def readNumber (q : NumState) (taken : List UInt8) : List UInt8 → Option (List UInt8 × List UInt8)
  | [] => if q.accepting then some (taken, []) else none
  | b :: t =>
    match q.next b with
    | some q => readNumber q (taken ++ [b]) t
    | none => if q.accepting then some (taken, b :: t) else none

mutual

/-- The value at the head, and what follows it. Every level takes a byte, so as many steps as the text
has bytes are enough. -/
def readValue : Nat → List UInt8 → Option (Json × List UInt8)
  | 0, _ => none
  | _ + 1, [] => none
  | steps + 1, b :: t =>
    if b = 0x22 then (readString .plain t).map fun r => (.string r.1, r.2)
    else if b = 0x5B then
      if (skipWs t).head? = some 0x5D then some (.array [], (skipWs t).tail)
      else (readItems steps (skipWs t)).map fun r => (.array r.1, r.2)
    else if b = 0x7B then
      if (skipWs t).head? = some 0x7D then some (.object [], (skipWs t).tail)
      else (readMembers steps (skipWs t)).map fun r => (.object r.1, r.2)
    else if (b :: t).take 4 = nullText then some (.null, (b :: t).drop 4)
    else if (b :: t).take 4 = trueText then some (.bool true, (b :: t).drop 4)
    else if (b :: t).take 5 = falseText then some (.bool false, (b :: t).drop 5)
    else (readNumber .start [] (b :: t)).map fun r => (.number r.1, r.2)

/-- The items of an array from one on, up to the closing bracket. -/
def readItems : Nat → List UInt8 → Option (List Json × List UInt8)
  | 0, _ => none
  | steps + 1, t =>
    match readValue steps t with
    | none => none
    | some (v, t) =>
      match skipWs t with
      | [] => none
      | b :: t =>
        if b = 0x2C then (readItems steps (skipWs t)).map fun r => (v :: r.1, r.2)
        else if b = 0x5D then some ([v], t)
        else none

/-- The members of an object from one on, up to the closing brace. -/
def readMembers : Nat → List UInt8 → Option (List (List UInt16 × Json) × List UInt8)
  | 0, _ => none
  | steps + 1, t =>
    if t.head? = some 0x22 then
      match readString .plain t.tail with
      | none => none
      | some (name, t) =>
        if (skipWs t).head? = some 0x3A then
          match readValue steps (skipWs (skipWs t).tail) with
          | none => none
          | some (v, t) =>
            match skipWs t with
            | [] => none
            | b :: t =>
              if b = 0x2C then (readMembers steps (skipWs t)).map fun r => ((name, v) :: r.1, r.2)
              else if b = 0x7D then some ([(name, v)], t)
              else none
        else none
    else none

end

/-- The value of a whole text. -/
def parse (text : List UInt8) : Option Json :=
  match readValue (text.length + 1) (skipWs text) with
  | some (v, rest) => if skipWs rest = [] then some v else none
  | none => none

/-! ## Completeness -/

theorem skipWs_append {blank : List UInt8} (h : AllWs blank) (t : List UInt8) :
    skipWs (blank ++ t) = skipWs t := List.dropWhile_append_of_pos h

theorem skipWs_cons {b : UInt8} (h : isWs b = false) (t : List UInt8) : skipWs (b :: t) = b :: t :=
  List.dropWhile_cons_of_neg (by rw [h]; exact Bool.false_ne_true)

theorem readString_hex {digits : List UInt8} {left : Nat} (hlen : digits.length = left + 1)
    {code code' : UInt16} (h : digits.foldlM hexPush code = some code') (t : List UInt8) :
    readString (.hex left code) (digits ++ t) =
      (readString .plain t).map fun r => (code' :: r.1, r.2) := by
  induction digits generalizing left code with
  | nil => cases hlen
  | cons d digits ih =>
    rw [List.foldlM_cons] at h
    obtain ⟨next, hpush, h⟩ := Option.bind_eq_some_iff.1 h
    rw [List.cons_append, readString, hpush]
    dsimp only
    cases left with
    | zero =>
      have hnil : digits = [] := List.eq_nil_of_length_eq_zero (Nat.succ.inj hlen)
      subst hnil
      cases h
      rfl
    | succ left => exact ih (Nat.succ.inj hlen) h

theorem readString_of_chars {t : List UInt8} {u : List UInt16} (h : Chars t u) (rest : List UInt8) :
    readString .plain (t ++ 0x22 :: rest) = some (u, rest) := by
  induction h with
  | nil => rfl
  | @plain b t u hctl hquote hslash _ ih =>
    rw [List.cons_append, readString, if_neg hquote, if_neg hslash, if_neg (UInt8.not_lt.2 hctl), ih]
    rfl
  | @escape b code t u hcode _ ih =>
    have hu : b ≠ 0x75 := by
      rintro rfl
      cases hcode
    rw [List.cons_append, List.cons_append, readString, if_neg (by decide), if_pos rfl, readString,
      if_neg hu, hcode]
    dsimp only
    rw [ih]
    rfl
  | @unicode digits code t u hlen hcode _ ih =>
    rw [List.cons_append, List.cons_append, List.append_assoc, readString, if_neg (by decide),
      if_pos rfl, readString, if_pos rfl, readString_hex hlen hcode, ih]
    rfl

/-- What may stand behind a value: the end, a blank, a comma or a closing bracket. -/
def Stops (rest : List UInt8) : Prop :=
  ∀ b t, rest = b :: t → isWs b = true ∨ b = 0x2C ∨ b = 0x5D ∨ b = 0x7D

theorem next_of_stop {b : UInt8} (h : isWs b = true ∨ b = 0x2C ∨ b = 0x5D ∨ b = 0x7D)
    (q : NumState) : q.next b = none := by
  simp only [isWs, Bool.or_eq_true, beq_iff_eq] at h
  rcases h with (((rfl | rfl) | rfl) | rfl) | rfl | rfl | rfl <;> cases q <;> rfl

theorem readNumber_of_run {q q' : NumState} {t : List UInt8} (h : q.run t = some q')
    (haccept : q'.accepting = true) {rest : List UInt8} (hstops : Stops rest) (taken : List UInt8) :
    readNumber q taken (t ++ rest) = some (taken ++ t, rest) := by
  induction t generalizing q taken with
  | nil =>
    cases h
    rw [List.append_nil]
    cases rest with
    | nil => rw [List.nil_append, readNumber, haccept, if_pos rfl]
    | cons b rest =>
      rw [List.nil_append, readNumber, next_of_stop (hstops b rest rfl), haccept]
      rfl
  | cons b t ih =>
    unfold NumState.run at h
    rw [List.foldlM_cons] at h
    obtain ⟨next, hnext, h⟩ := Option.bind_eq_some_iff.1 h
    rw [List.cons_append, readNumber, hnext]
    dsimp only
    rw [ih h, List.append_assoc, List.singleton_append]

/-- The first byte of a value: no blank, and no bracket that closes. -/
def Leads (t : List UInt8) : Prop :=
  ∃ b t', t = b :: t' ∧ isWs b = false ∧ b ≠ 0x5D ∧ b ≠ 0x7D

theorem IsNumber.head {t : List UInt8} (h : IsNumber t) :
    ∃ b t', t = b :: t' ∧ (b = 0x2D ∨ isDigit b = true) := by
  obtain ⟨q, hrun, haccept⟩ := h
  cases t with
  | nil =>
    cases hrun
    cases haccept
  | cons b t =>
    refine ⟨b, t, rfl, ?_⟩
    unfold NumState.run at hrun
    rw [List.foldlM_cons] at hrun
    obtain ⟨next, hnext, -⟩ := Option.bind_eq_some_iff.1 hrun
    simp only [NumState.next, NumState.lead] at hnext
    split_ifs at hnext with hminus hzero hdigit
    · exact .inl hminus
    · exact .inr (by rw [hzero]; rfl)
    · exact .inr hdigit

theorem Value.leads {t : List UInt8} {v : Json} (h : Value t v) : Leads t := by
  cases h with
  | null => exact ⟨_, _, rfl, by decide, by decide, by decide⟩
  | true => exact ⟨_, _, rfl, by decide, by decide, by decide⟩
  | false => exact ⟨_, _, rfl, by decide, by decide, by decide⟩
  | string h => exact ⟨_, _, rfl, by decide, by decide, by decide⟩
  | emptyArray h => exact ⟨_, _, rfl, by decide, by decide, by decide⟩
  | array hne hspaced h => exact ⟨_, _, rfl, by decide, by decide, by decide⟩
  | emptyObject h => exact ⟨_, _, rfl, by decide, by decide, by decide⟩
  | object hne hspaced hname h => exact ⟨_, _, rfl, by decide, by decide, by decide⟩
  | number h =>
    obtain ⟨b, t', rfl, hb⟩ := h.head
    refine ⟨b, t', rfl, ?_, ?_, ?_⟩
    · rw [Bool.eq_false_iff]
      intro hws
      simp only [isWs, Bool.or_eq_true, beq_iff_eq] at hws
      rcases hws with ((rfl | rfl) | rfl) | rfl <;> revert hb <;> decide
    · rintro rfl
      revert hb
      decide
    · rintro rfl
      revert hb
      decide

theorem Leads.skipWs {t : List UInt8} (h : Leads t) (rest : List UInt8) :
    skipWs (t ++ rest) = t ++ rest := by
  obtain ⟨b, t', rfl, hws, -⟩ := h
  exact skipWs_cons hws (t' ++ rest)

theorem separated_cons_cons (a b : List UInt8) (ts : List (List UInt8)) :
    separated (a :: b :: ts) = a ++ 0x2C :: separated (b :: ts) := by
  simp [separated]

theorem separated_singleton (a : List UInt8) : separated [a] = a := by simp [separated]

/-- Blanks and then a comma or a closing bracket may stand behind a value. -/
theorem stops_of_blanks {blank : List UInt8} (h : AllWs blank) {b : UInt8}
    (hb : b = 0x2C ∨ b = 0x5D ∨ b = 0x7D) (t : List UInt8) : Stops (blank ++ b :: t) := by
  intro c t' heq
  cases blank with
  | nil =>
    obtain ⟨rfl, -⟩ := List.cons.inj heq
    exact .inr hb
  | cons w blank =>
    obtain ⟨rfl, -⟩ := List.cons.inj heq
    exact .inl (h w List.mem_cons_self)

/-- The reader returns the value of this text, whatever follows, with as many steps as it has bytes. -/
def Reads (t : List UInt8) (v : Json) : Prop :=
  ∀ steps, t.length < steps → ∀ rest, Stops rest → readValue steps (t ++ rest) = some (v, rest)

theorem Item.length_text_le (it : Item) : it.text.length ≤ it.full.length := by
  rw [Item.full, List.length_append, List.length_append]
  omega

/-- An item read with the blanks around it, up to the comma or bracket behind it. -/
theorem readValue_item {it : Item} (hspaced : it.Spaced) (hlead : Leads it.text)
    (hreads : Reads it.text it.value) {steps : Nat} (hsteps : it.text.length < steps) {b : UInt8}
    (hb : b = 0x2C ∨ b = 0x5D ∨ b = 0x7D) (t : List UInt8) :
    ∃ t', readValue steps (skipWs (it.full ++ b :: t)) = some (it.value, t') ∧
      skipWs t' = b :: t := by
  have hws : isWs b = false := by rcases hb with rfl | rfl | rfl <;> decide
  refine ⟨it.after ++ b :: t, ?_, ?_⟩
  · rw [Item.full, List.append_assoc, List.append_assoc, skipWs_append hspaced.before, hlead.skipWs]
    exact hreads steps hsteps _ (stops_of_blanks hspaced.after hb t)
  · rw [skipWs_append hspaced.after, skipWs_cons hws]

theorem readItems_of_items {items : List Item} (hne : items ≠ [])
    (hspaced : ∀ it ∈ items, it.Spaced) (hlead : ∀ it ∈ items, Leads it.text)
    (hreads : ∀ it ∈ items, Reads it.text it.value) {steps : Nat}
    (hsteps : (separated (items.map Item.full)).length + 1 < steps) (rest : List UInt8) :
    readItems steps (skipWs (separated (items.map Item.full) ++ 0x5D :: rest)) =
      some (items.map Item.value, rest) := by
  induction items generalizing steps with
  | nil => exact absurd rfl hne
  | cons it items ih =>
    obtain ⟨steps, rfl⟩ : ∃ n, steps = n + 1 := ⟨steps - 1, by omega⟩
    have hshort : it.text.length < steps := by
      rw [List.map_cons, separated, List.length_append] at hsteps
      have hfull := it.length_text_le
      omega
    have hfirst := fun {b} (hb : b = 0x2C ∨ b = 0x5D ∨ b = 0x7D) => readValue_item
      (hspaced it List.mem_cons_self) (hlead it List.mem_cons_self) (hreads it List.mem_cons_self)
      hshort hb
    cases items with
    | nil =>
      rw [List.map_singleton, separated_singleton] at hsteps ⊢
      obtain ⟨t', hread, hskip⟩ := hfirst (.inr (.inl rfl)) rest
      rw [readItems, hread]
      dsimp only
      rw [hskip]
      rfl
    | cons it' items =>
      rw [List.map_cons, List.map_cons, separated_cons_cons, ← List.map_cons] at hsteps ⊢
      rw [List.length_append, List.length_cons] at hsteps
      rw [List.append_assoc, List.cons_append]
      obtain ⟨t', hread, hskip⟩ := hfirst (.inl rfl)
        (separated ((it' :: items).map Item.full) ++ 0x5D :: rest)
      rw [readItems, hread]
      dsimp only
      rw [hskip]
      dsimp only
      rw [if_pos rfl, ih (List.cons_ne_nil _ _) (fun x hx => hspaced x (List.mem_cons_of_mem _ hx))
        (fun x hx => hlead x (List.mem_cons_of_mem _ hx))
        (fun x hx => hreads x (List.mem_cons_of_mem _ hx)) (by omega)]
      rfl

theorem readMembers_of_members {members : List Member} (hne : members ≠ [])
    (hspaced : ∀ m ∈ members, m.Spaced) (hname : ∀ m ∈ members, Chars m.name m.chars)
    (hlead : ∀ m ∈ members, Leads m.item.text)
    (hreads : ∀ m ∈ members, Reads m.item.text m.item.value) {steps : Nat}
    (hsteps : (separated (members.map Member.full)).length + 1 < steps) (rest : List UInt8) :
    readMembers steps (skipWs (separated (members.map Member.full) ++ 0x7D :: rest)) =
      some (members.map fun m => (m.chars, m.item.value), rest) := by
  induction members generalizing steps with
  | nil => exact absurd rfl hne
  | cons m members ih =>
    obtain ⟨steps, rfl⟩ : ∃ n, steps = n + 1 := ⟨steps - 1, by omega⟩
    have hspaced₀ := hspaced m List.mem_cons_self
    have hshort : m.item.text.length < steps := by
      rw [List.map_cons, separated, List.length_append, Member.full] at hsteps
      simp only [List.length_append, List.length_cons] at hsteps
      have hfull := m.item.length_text_le
      omega
    -- the member up to its value, with what is left of the object behind it
    have hfirst : ∀ {b : UInt8} (hb : b = 0x2C ∨ b = 0x5D ∨ b = 0x7D) (t : List UInt8),
        readMembers (steps + 1) (skipWs (m.full ++ b :: t)) =
          if b = 0x2C then
            (readMembers steps (skipWs t)).map fun r => ((m.chars, m.item.value) :: r.1, r.2)
          else if b = 0x7D then some ([(m.chars, m.item.value)], t) else none := by
      intro b hb t
      obtain ⟨t', hread, hskip⟩ := readValue_item hspaced₀.item (hlead m List.mem_cons_self)
        (hreads m List.mem_cons_self) hshort hb t
      have hfull : m.full ++ b :: t = m.before ++ (0x22 :: (m.name ++
          0x22 :: (m.gap ++ 0x3A :: (m.item.full ++ b :: t)))) := by
        simp only [Member.full, List.append_assoc, List.cons_append]
      have hgap : skipWs (m.gap ++ 0x3A :: (m.item.full ++ b :: t)) =
          0x3A :: (m.item.full ++ b :: t) := by
        rw [skipWs_append hspaced₀.gap, skipWs_cons (by decide)]
      rw [hfull, skipWs_append hspaced₀.before, skipWs_cons (by decide), readMembers,
        List.head?_cons, if_pos rfl, List.tail_cons, readString_of_chars (hname m List.mem_cons_self)]
      dsimp only
      rw [hgap, List.head?_cons, if_pos rfl, List.tail_cons, hread]
      dsimp only
      rw [hskip]
    cases members with
    | nil =>
      rw [List.map_singleton, separated_singleton, hfirst (.inr (.inr rfl))]
      rfl
    | cons m' members =>
      rw [List.map_cons, List.map_cons, separated_cons_cons, ← List.map_cons] at hsteps ⊢
      rw [List.length_append, List.length_cons] at hsteps
      rw [List.append_assoc, List.cons_append, hfirst (.inl rfl), if_pos rfl,
        ih (List.cons_ne_nil _ _) (fun x hx => hspaced x (List.mem_cons_of_mem _ hx))
          (fun x hx => hname x (List.mem_cons_of_mem _ hx))
          (fun x hx => hlead x (List.mem_cons_of_mem _ hx))
          (fun x hx => hreads x (List.mem_cons_of_mem _ hx)) (by omega)]
      rfl

/-- Behind an opening bracket, the blanks of the first item lead to its value. -/
theorem skipWs_items {items : List Item} (hne : items ≠ []) (hspaced : ∀ it ∈ items, it.Spaced)
    (hlead : ∀ it ∈ items, Leads it.text) (rest : List UInt8) :
    (skipWs (separated (items.map Item.full) ++ rest)).head? ≠ some 0x5D := by
  obtain ⟨it, items, rfl⟩ := List.exists_cons_of_ne_nil hne
  obtain ⟨b, t', htext, hws, hclose, -⟩ := hlead it List.mem_cons_self
  have hfull : separated ((it :: items).map Item.full) ++ rest =
      it.before ++ (it.text ++ (it.after ++ ((items.map Item.full).flatMap (0x2C :: ·) ++ rest))) := by
    simp only [List.map_cons, separated, Item.full, List.append_assoc]
  rw [hfull, skipWs_append (hspaced it List.mem_cons_self).before, htext, List.cons_append,
    skipWs_cons hws, List.head?_cons]
  exact fun h => hclose (Option.some.inj h)

theorem skipWs_members {members : List Member} (hne : members ≠ [])
    (hspaced : ∀ m ∈ members, m.Spaced) (rest : List UInt8) :
    (skipWs (separated (members.map Member.full) ++ rest)).head? ≠ some 0x7D := by
  obtain ⟨m, members, rfl⟩ := List.exists_cons_of_ne_nil hne
  rw [List.map_cons, separated, Member.full, List.append_assoc, List.append_assoc,
    skipWs_append (hspaced m List.mem_cons_self).before, List.cons_append, skipWs_cons (by decide),
    List.head?_cons]
  decide

theorem reads_number {t : List UInt8} (h : IsNumber t) : Reads t (.number t) := by
  intro steps hsteps rest hstops
  obtain ⟨steps, rfl⟩ : ∃ n, steps = n + 1 := ⟨steps - 1, by omega⟩
  obtain ⟨b, t', rfl, hb⟩ := h.head
  obtain ⟨q, hrun, haccept⟩ := h
  have hne : ∀ c : UInt8, c ≠ 0x2D → isDigit c = false → b ≠ c := by
    rintro c hminus hdigit rfl
    rcases hb with hb | hb
    · exact hminus hb
    · rw [hb] at hdigit
      cases hdigit
  have hword : ∀ (n : Nat) (c : UInt8) (w : List UInt8), c ≠ 0x2D → isDigit c = false →
      (b :: (t' ++ rest)).take (n + 1) ≠ c :: w := by
    intro n c w hminus hdigit heq
    rw [List.take_succ_cons] at heq
    exact hne c hminus hdigit (List.cons.inj heq).1
  have hnull : (b :: (t' ++ rest)).take 4 ≠ nullText := hword 3 _ _ (by decide) (by decide)
  have htrue : (b :: (t' ++ rest)).take 4 ≠ trueText := hword 3 _ _ (by decide) (by decide)
  have hfalse : (b :: (t' ++ rest)).take 5 ≠ falseText := hword 4 _ _ (by decide) (by decide)
  rw [List.cons_append, readValue, if_neg (hne _ (by decide) (by decide)),
    if_neg (hne _ (by decide) (by decide)), if_neg (hne _ (by decide) (by decide)), if_neg hnull,
    if_neg htrue, if_neg hfalse, ← List.cons_append, readNumber_of_run hrun haccept hstops]
  rfl

/-- **Completeness**: the reader returns the value of every text of the grammar. -/
theorem readValue_of_value {t : List UInt8} {v : Json} (h : Value t v) : Reads t v := by
  induction h with
  | number h => exact reads_number h
  | null | true | false =>
    intro steps hsteps rest _
    obtain ⟨steps, rfl⟩ : ∃ n, steps = n + 1 := ⟨steps - 1, by omega⟩
    rfl
  | string h =>
    intro steps hsteps rest _
    obtain ⟨steps, rfl⟩ : ∃ n, steps = n + 1 := ⟨steps - 1, by omega⟩
    rw [List.cons_append, List.append_assoc, List.singleton_append, readValue, if_pos rfl,
      readString_of_chars h]
    rfl
  | emptyArray h =>
    intro steps hsteps rest _
    obtain ⟨steps, rfl⟩ : ∃ n, steps = n + 1 := ⟨steps - 1, by omega⟩
    rw [List.cons_append, List.append_assoc, List.singleton_append, readValue, if_neg (by decide),
      if_pos rfl, skipWs_append h, skipWs_cons (by decide), List.head?_cons, if_pos rfl]
    rfl
  | emptyObject h =>
    intro steps hsteps rest _
    obtain ⟨steps, rfl⟩ : ∃ n, steps = n + 1 := ⟨steps - 1, by omega⟩
    rw [List.cons_append, List.append_assoc, List.singleton_append, readValue, if_neg (by decide),
      if_neg (by decide), if_pos rfl, skipWs_append h, skipWs_cons (by decide), List.head?_cons,
      if_pos rfl]
    rfl
  | @array items hne hspaced h ih =>
    intro steps hsteps rest _
    obtain ⟨steps, rfl⟩ : ∃ n, steps = n + 1 := ⟨steps - 1, by omega⟩
    have hlead : ∀ it ∈ items, Leads it.text := fun it hit => (h it hit).leads
    rw [List.length_cons, List.length_append, List.length_singleton] at hsteps
    rw [List.cons_append, List.append_assoc, List.singleton_append, readValue, if_neg (by decide),
      if_pos rfl, if_neg (skipWs_items hne hspaced hlead _),
      readItems_of_items hne hspaced hlead ih (by omega)]
    rfl
  | @object members hne hspaced hname h ih =>
    intro steps hsteps rest _
    obtain ⟨steps, rfl⟩ : ∃ n, steps = n + 1 := ⟨steps - 1, by omega⟩
    have hlead : ∀ m ∈ members, Leads m.item.text := fun m hm => (h m hm).leads
    rw [List.length_cons, List.length_append, List.length_singleton] at hsteps
    rw [List.cons_append, List.append_assoc, List.singleton_append, readValue, if_neg (by decide),
      if_neg (by decide), if_pos rfl, if_neg (skipWs_members hne hspaced _),
      readMembers_of_members hne hspaced hname hlead ih (by omega)]
    rfl

theorem stops_of_allWs {blank : List UInt8} (h : AllWs blank) : Stops blank := by
  rintro b t rfl
  exact .inl (h b List.mem_cons_self)

/-- A text of the grammar is parsed to the value it denotes. -/
theorem JsonText.parse_eq {text : List UInt8} {v : Json} (h : JsonText text v) :
    parse text = some v := by
  obtain ⟨it, hspaced, hvalue, rfl, rfl⟩ := h
  have hlen := it.length_text_le
  have hread : readValue (it.full.length + 1) (skipWs it.full) = some (it.value, it.after) := by
    rw [Item.full, List.append_assoc, skipWs_append hspaced.before, hvalue.leads.skipWs]
    refine readValue_of_value hvalue _ ?_ _ (stops_of_allWs hspaced.after)
    rw [List.length_append, List.length_append]
    omega
  have hrest : skipWs it.after = [] := List.dropWhile_eq_nil_iff.2 hspaced.after
  rw [parse, hread]
  dsimp only
  rw [if_pos hrest]

/-- A text denotes one value. -/
theorem JsonText.unique {text : List UInt8} {v v' : Json} (h : JsonText text v)
    (h' : JsonText text v') : v' = v :=
  Option.some.inj (h'.parse_eq.symm.trans h.parse_eq)

/-! ## Decimal texts -/

def digitText (d : Nat) : UInt8 := 0x30 + UInt8.ofNat d

/-- The shortest decimal text of a number, as `%u` writes it. -/
def decimalText (n : Nat) : List UInt8 :=
  if n = 0 then [0x30] else (Nat.digits 10 n).reverse.map digitText

/-- As `%d` writes it. -/
def intText (i : Int) : List UInt8 :=
  if i < 0 then 0x2D :: decimalText i.natAbs else decimalText i.natAbs

theorem isDigit_digitText {d : Nat} (h : d < 10) : isDigit (digitText d) = true := by
  have hall : ∀ d < 10, isDigit (digitText d) = true := by decide
  exact hall d h

theorem digitText_ne_zero {d : Nat} (h : d < 10) (hd : d ≠ 0) : digitText d ≠ 0x30 := by
  have hall : ∀ d < 10, d ≠ 0 → digitText d ≠ 0x30 := by decide
  exact hall d h hd

theorem run_digits {t : List UInt8} (h : ∀ b ∈ t, isDigit b = true) :
    NumState.int.run t = some .int := by
  induction t with
  | nil => rfl
  | cons b t ih =>
    have hb : NumState.int.next b = some .int := if_pos (h b List.mem_cons_self)
    rw [NumState.run, List.foldlM_cons, hb]
    exact ih fun c hc => h c (List.mem_cons_of_mem b hc)

/-- Read from a state that goes to the leading digit, a decimal text ends in an accepting one. -/
theorem run_decimalText {q : NumState} (hq : ∀ b, isDigit b = true → q.next b = NumState.lead b) (n : Nat) :
    ∃ q', q.run (decimalText n) = some q' ∧ q'.accepting = true := by
  unfold decimalText
  split_ifs with hn
  · have hzero : q.next 0x30 = some .zero := hq 0x30 rfl
    refine ⟨.zero, ?_, rfl⟩
    rw [NumState.run, List.foldlM_cons, hzero]
    rfl
  · have hne : Nat.digits 10 n ≠ [] := Nat.digits_ne_nil_iff_ne_zero.2 hn
    obtain ⟨d, ds, hds⟩ := List.exists_cons_of_ne_nil (List.reverse_ne_nil_iff.2 hne)
    have hlt : ∀ x ∈ d :: ds, x < 10 := fun x hx =>
      Nat.digits_lt_base (by decide) (List.mem_reverse.1 (hds ▸ hx))
    have hlast : d ≠ 0 := by
      have hlead : (Nat.digits 10 n).getLast hne = d := by
        rw [← List.head_reverse (by rwa [List.reverse_ne_nil_iff])]
        simp only [hds, List.head_cons]
      rw [← hlead]
      exact Nat.getLast_digit_ne_zero 10 hn
    have hd := hlt d List.mem_cons_self
    have hfirst : q.next (digitText d) = some .int := by
      rw [hq _ (isDigit_digitText hd), NumState.lead, if_neg (digitText_ne_zero hd hlast),
        isDigit_digitText hd, if_pos rfl]
    refine ⟨.int, ?_, rfl⟩
    rw [hds, List.map_cons, NumState.run, List.foldlM_cons, hfirst]
    refine run_digits fun b hb => ?_
    obtain ⟨x, hx, rfl⟩ := List.mem_map.1 hb
    exact isDigit_digitText (hlt x (List.mem_cons_of_mem d hx))

theorem isNumber_decimalText (n : Nat) : IsNumber (decimalText n) := by
  refine run_decimalText (fun b hb => ?_) n
  refine if_neg ?_
  rintro rfl
  cases hb

theorem isNumber_intText (i : Int) : IsNumber (intText i) := by
  unfold intText
  split_ifs with hi
  · exact run_decimalText (q := .minus) (fun b hb => rfl) i.natAbs
  · exact isNumber_decimalText i.natAbs

/-! ## Written texts -/

/-- The codes of bytes. -/
def codes (s : List UInt8) : List UInt16 := s.map UInt8.toUInt16

theorem chars_of_plain {t : List UInt8} (h : ∀ b ∈ t, 0x20 ≤ b ∧ b ≠ 0x22 ∧ b ≠ 0x5C) :
    Chars t (codes t) := by
  induction t with
  | nil => exact .nil
  | cons b t ih =>
    obtain ⟨hctl, hquote, hslash⟩ := h b List.mem_cons_self
    exact .plain hctl hquote hslash (ih fun c hc => h c (List.mem_cons_of_mem b hc))

theorem spaced_bare (text : List UInt8) (value : Json) : Item.Spaced { text, value } :=
  ⟨fun _ hb => absurd hb List.not_mem_nil, fun _ hb => absurd hb List.not_mem_nil⟩

/-- An array of texts with nothing but commas between them. -/
theorem Value.array_of_texts {texts : List (List UInt8)} {values : List Json}
    (h : List.Forall₂ Value texts values) :
    Value (0x5B :: (separated texts ++ [0x5D])) (.array values) := by
  have hitems : ∃ items : List Item, items.map Item.full = texts ∧ items.map Item.value = values ∧
      (∀ it ∈ items, it.Spaced) ∧ ∀ it ∈ items, Value it.text it.value := by
    induction h with
    | nil => exact ⟨[], rfl, rfl, by simp, by simp⟩
    | @cons text value texts values hvalue _ ih =>
      obtain ⟨items, rfl, rfl, hspaced, hvalues⟩ := ih
      refine ⟨{ text, value } :: items, by simp [Item.full], rfl, ?_, ?_⟩
      · exact List.forall_mem_cons.2 ⟨spaced_bare text value, hspaced⟩
      · exact List.forall_mem_cons.2 ⟨hvalue, hvalues⟩
  obtain ⟨items, rfl, rfl, hspaced, hvalues⟩ := hitems
  cases items with
  | nil =>
    have hblank : AllWs [] := fun _ hb => absurd hb List.not_mem_nil
    exact .emptyArray hblank
  | cons it items => exact .array (List.cons_ne_nil _ _) hspaced hvalues

theorem Value.jsonText {text : List UInt8} {v : Json} (h : Value text v) : JsonText text v :=
  ⟨{ text, value := v }, spaced_bare text v, h, by simp [Item.full], rfl⟩

end Tc8Harness.Rfc8259
