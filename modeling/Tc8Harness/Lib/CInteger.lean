import Mathlib

/-!
# Integer constants and `strtoull`

The integer constants of C without suffix (`Constant`) and the library's `strtoull` with base 0. The
conversion skips white space, takes a sign, and reads the longest constant; a value beyond 64 bits is a
range error, and a minus sign negates in 64 bits. `strtoull_constant` and `strtoull_whole` say which
texts it reads to their end.
-/

namespace CInteger

/-! ## Digits -/

def isSpace (c : Char) : Bool :=
  c == ' ' || c == '\t' || c == '\n' || c == '\x0b' || c == '\x0c' || c == '\r'

def digitValue (c : Char) : Option Nat :=
  if '0' ≤ c ∧ c ≤ '9' then some (c.toNat - '0'.toNat)
  else if 'a' ≤ c ∧ c ≤ 'f' then some (10 + (c.toNat - 'a'.toNat))
  else if 'A' ≤ c ∧ c ≤ 'F' then some (10 + (c.toNat - 'A'.toNat))
  else none

def isDigitIn (base : Nat) (c : Char) : Bool := (digitValue c).any (· < base)

def digitsValue (base : Nat) (ds : List Char) : Nat :=
  ds.foldl (fun n c => n * base + (digitValue c).getD 0) 0

theorem digitValue_lt {c : Char} {d : Nat} (h : digitValue c = some d) : d < 16 := by
  unfold digitValue at h
  have h9 : '9'.toNat = 57 := rfl
  have h0 : '0'.toNat = 48 := rfl
  have hf : 'f'.toNat = 102 := rfl
  have ha : 'a'.toNat = 97 := rfl
  have hF : 'F'.toNat = 70 := rfl
  have hA : 'A'.toNat = 65 := rfl
  split at h
  · next hc =>
    have : c.toNat ≤ '9'.toNat := hc.2
    cases h
    omega
  · split at h
    · next hc =>
      have : c.toNat ≤ 'f'.toNat := hc.2
      cases h
      omega
    · split at h
      · next hc =>
        have : c.toNat ≤ 'F'.toNat := hc.2
        cases h
        omega
      · cases h

theorem isDigitIn_mono {base base' : Nat} (hle : base ≤ base') {c : Char}
    (h : isDigitIn base c = true) : isDigitIn base' c = true := by
  unfold isDigitIn at h ⊢
  cases hd : digitValue c with
  | none => simp [hd] at h
  | some d =>
    simp only [hd, Option.any_some, decide_eq_true_eq] at h ⊢
    omega

/-! ## Constants -/

/-- Decimal, octal (a leading 0) and hexadecimal (0x) constants with their values. -/
inductive Constant : List Char → Nat → Prop
  | decimal {d : Char} {ds : List Char} (hd : d ≠ '0') (h : ∀ c ∈ d :: ds, isDigitIn 10 c = true) :
      Constant (d :: ds) (digitsValue 10 (d :: ds))
  | octal {ds : List Char} (h : ∀ c ∈ ds, isDigitIn 8 c = true) :
      Constant ('0' :: ds) (digitsValue 8 ('0' :: ds))
  | hex {x : Char} {ds : List Char} (hx : x = 'x' ∨ x = 'X') (hne : ds ≠ [])
      (h : ∀ c ∈ ds, isDigitIn 16 c = true) : Constant ('0' :: x :: ds) (digitsValue 16 ds)

/-- The base a constant is written in and the characters its digits start at. -/
def radix (s : List Char) : Nat × List Char :=
  match s with
  | '0' :: x :: d :: rest =>
    if (x = 'x' ∨ x = 'X') ∧ isDigitIn 16 d = true then (16, d :: rest) else (8, s)
  | '0' :: _ => (8, s)
  | _ => (10, s)

/-- The longest constant at the start of a text: its value and what follows it. -/
def leading (s : List Char) : Option (Nat × List Char) :=
  let (base, digits) := radix s
  if digits.takeWhile (isDigitIn base) = [] then none
  else some (digitsValue base (digits.takeWhile (isDigitIn base)), digits.dropWhile (isDigitIn base))

theorem radix_decimal {d : Char} {ds : List Char} (hd : d ≠ '0') : radix (d :: ds) = (10, d :: ds) := by
  unfold radix
  split
  · next h =>
    cases h
    exact absurd rfl hd
  · next h =>
    cases h
    exact absurd rfl hd
  · rfl

theorem radix_zero (ds : List Char) : radix ('0' :: ds) = (8, '0' :: ds) ∨
    ∃ x d rest, ds = x :: d :: rest ∧ (x = 'x' ∨ x = 'X') ∧ isDigitIn 16 d = true ∧
      radix ('0' :: ds) = (16, d :: rest) := by
  unfold radix
  split
  · next x d rest h =>
    cases h
    split
    · next hx => exact .inr ⟨x, d, rest, rfl, hx.1, hx.2, rfl⟩
    · exact .inl rfl
  · exact .inl rfl
  · next hne => exact absurd rfl (hne ds)

theorem leading_of_radix {s digits : List Char} {base : Nat} (h : radix s = (base, digits))
    (hne : digits ≠ []) (hall : ∀ c ∈ digits, isDigitIn base c = true) :
    leading s = some (digitsValue base digits, []) := by
  have htake : digits.takeWhile (isDigitIn base) = digits := List.takeWhile_eq_self_iff.2 hall
  have hdrop : digits.dropWhile (isDigitIn base) = [] := List.dropWhile_eq_nil_iff.2 hall
  simp only [leading, h, htake, hdrop, if_neg hne]

theorem radix_of_leading {s : List Char} {n : Nat} (h : leading s = some (n, [])) :
    ∃ base digits, radix s = (base, digits) ∧ digits ≠ [] ∧
      (∀ c ∈ digits, isDigitIn base c = true) ∧ n = digitsValue base digits := by
  cases hr : radix s with
  | mk base digits =>
    simp only [leading, hr, Option.ite_none_left_eq_some, Option.some.injEq, Prod.mk.injEq] at h
    obtain ⟨hne, hn, hdrop⟩ := h
    have hall := List.dropWhile_eq_nil_iff.1 hdrop
    rw [List.takeWhile_eq_self_iff.2 hall] at hne hn
    exact ⟨base, digits, rfl, hne, hall, hn.symm⟩

/-- The longest constant is the whole text exactly when the text is a constant. -/
theorem leading_whole_iff {s : List Char} {n : Nat} : leading s = some (n, []) ↔ Constant s n := by
  constructor
  · intro h
    obtain ⟨base, digits, hr, hne, hall, rfl⟩ := radix_of_leading h
    cases s with
    | nil =>
      cases hr
      exact absurd rfl hne
    | cons d ds =>
      by_cases hd : d = '0'
      · subst hd
        rcases radix_zero ds with h8 | ⟨x, d, rest, rfl, hx, hdigit, h16⟩
        · rw [h8] at hr
          cases hr
          exact .octal fun c hc => hall c (List.mem_cons_of_mem _ hc)
        · rw [h16] at hr
          cases hr
          exact .hex hx hne hall
      · rw [radix_decimal hd] at hr
        cases hr
        exact .decimal hd hall
  · intro h
    cases h with
    | decimal hd h => exact leading_of_radix (radix_decimal hd) (List.cons_ne_nil _ _) h
    | @octal ds h =>
      refine leading_of_radix ?_ (List.cons_ne_nil _ _) ?_
      · rcases radix_zero ds with h8 | ⟨x, d, rest, rfl, hx, -, -⟩
        · exact h8
        · have hoctal := h x List.mem_cons_self
          rcases hx with rfl | rfl <;> exact absurd hoctal (by decide)
      · intro c hc
        rcases List.mem_cons.1 hc with rfl | hc
        · decide
        · exact h c hc
    | @hex x ds hx hne h =>
      obtain ⟨d, rest, rfl⟩ := List.exists_cons_of_ne_nil hne
      refine leading_of_radix ?_ hne h
      simp [radix, hx, h d List.mem_cons_self]

theorem Constant.unique {s : List Char} {m n : Nat} (hm : Constant s m) (hn : Constant s n) :
    m = n := by
  have := (leading_whole_iff.2 hm).symm.trans (leading_whole_iff.2 hn)
  simpa using this

/-- What a constant is made of: no white space, no sign, no NUL. -/
theorem Constant.isDigitIn_or {s : List Char} {n : Nat} (h : Constant s n) :
    ∀ c ∈ s, isDigitIn 16 c = true ∨ c = 'x' ∨ c = 'X' := by
  cases h with
  | decimal hd h => exact fun c hc => .inl (isDigitIn_mono (by decide) (h c hc))
  | octal h =>
    intro c hc
    rcases List.mem_cons.1 hc with rfl | hc
    · exact .inl (by decide)
    · exact .inl (isDigitIn_mono (by decide) (h c hc))
  | hex hx hne h =>
    intro c hc
    rcases List.mem_cons.1 hc with rfl | hc
    · exact .inl (by decide)
    · rcases List.mem_cons.1 hc with rfl | hc
      · exact .inr hx
      · exact .inl (h c hc)

theorem Constant.plain {s : List Char} {n : Nat} (h : Constant s n) :
    ∀ c ∈ s, isSpace c = false ∧ c ≠ '+' ∧ c ≠ '-' ∧ c ≠ '\x00' := by
  intro c hc
  have hor := h.isDigitIn_or c hc
  refine ⟨?_, ?_, ?_, ?_⟩
  · rw [Bool.eq_false_iff]
    intro hspace
    simp only [isSpace, Bool.or_eq_true, beq_iff_eq] at hspace
    rcases hspace with ((((rfl | rfl) | rfl) | rfl) | rfl) | rfl <;> exact absurd hor (by decide)
  all_goals
    rintro rfl
    exact absurd hor (by decide)

theorem Constant.ne_nil {s : List Char} {n : Nat} (h : Constant s n) : s ≠ [] := by
  cases h <;> exact List.cons_ne_nil _ _

/-! ## `strtoull` -/

structure Conversion where
  value : UInt64
  rangeError : Bool
  rest : List Char
  deriving DecidableEq, Repr

/-- A sign and what follows it; no sign is a plus. -/
def takeSign : List Char → Bool × List Char
  | '-' :: s => (true, s)
  | '+' :: s => (false, s)
  | s => (false, s)

/-- `strtoull(s, &end, 0)`; `none` when there is nothing to convert. -/
def strtoull (s : List Char) : Option Conversion :=
  let (negative, unsigned) := takeSign (s.dropWhile isSpace)
  (leading unsigned).map fun (n, rest) =>
    { value :=
        if 2 ^ 64 ≤ n then UInt64.ofNat (2 ^ 64 - 1)
        else if negative then 0 - UInt64.ofNat n
        else UInt64.ofNat n
      rangeError := decide (2 ^ 64 ≤ n)
      rest := rest }

def IsSign (sign : List Char) : Prop := sign = [] ∨ sign = ['+'] ∨ sign = ['-']

theorem takeSign_append {sign s : List Char} {n : Nat} (hsign : IsSign sign) (hs : Constant s n) :
    takeSign (sign ++ s) = (decide (sign = ['-']), s) := by
  rcases hsign with rfl | rfl | rfl
  · obtain ⟨c, cs, rfl⟩ := List.exists_cons_of_ne_nil hs.ne_nil
    obtain ⟨-, hplus, hminus, -⟩ := hs.plain c List.mem_cons_self
    unfold takeSign
    split
    · next h =>
      cases h
      exact absurd rfl hminus
    · next h =>
      cases h
      exact absurd rfl hplus
    · rfl
  · rfl
  · rfl

theorem dropWhile_isSpace {blanks sign s : List Char} {n : Nat}
    (hblanks : ∀ c ∈ blanks, isSpace c = true) (hsign : IsSign sign) (hs : Constant s n) :
    (blanks ++ (sign ++ s)).dropWhile isSpace = sign ++ s := by
  rw [List.dropWhile_append_of_pos hblanks]
  obtain ⟨c, cs, hcs⟩ := List.exists_cons_of_ne_nil hs.ne_nil
  have hc : isSpace c = false := (hs.plain c (by rw [hcs]; exact List.mem_cons_self)).1
  rcases hsign with rfl | rfl | rfl
  · rw [hcs, List.nil_append, List.dropWhile_cons_of_neg (by simp [hc])]
  · exact List.dropWhile_cons_of_neg (by decide)
  · exact List.dropWhile_cons_of_neg (by decide)

theorem strtoull_constant {blanks sign s : List Char} {n : Nat}
    (hblanks : ∀ c ∈ blanks, isSpace c = true) (hsign : IsSign sign) (hs : Constant s n) :
    strtoull (blanks ++ (sign ++ s)) =
      some { value :=
              if 2 ^ 64 ≤ n then UInt64.ofNat (2 ^ 64 - 1)
              else if sign = ['-'] then 0 - UInt64.ofNat n
              else UInt64.ofNat n
             rangeError := decide (2 ^ 64 ≤ n)
             rest := [] } := by
  rw [strtoull, dropWhile_isSpace hblanks hsign hs, takeSign_append hsign hs]
  simp [leading_whole_iff.2 hs]

theorem takeSign_split (s : List Char) :
    ∃ sign, IsSign sign ∧ s = sign ++ (takeSign s).2 := by
  unfold takeSign
  split
  · exact ⟨['-'], .inr (.inr rfl), rfl⟩
  · exact ⟨['+'], .inr (.inl rfl), rfl⟩
  · exact ⟨[], .inl rfl, rfl⟩

/-- A text read to its end is white space, a sign and a constant, and nothing else. -/
theorem strtoull_whole {s : List Char} {c : Conversion} (h : strtoull s = some c)
    (hrange : c.rangeError = false) (hrest : c.rest = []) :
    ∃ blanks sign t n, s = blanks ++ (sign ++ t) ∧ (∀ c ∈ blanks, isSpace c = true) ∧
      IsSign sign ∧ Constant t n ∧ n < 2 ^ 64 := by
  obtain ⟨sign, hsign, hsplit⟩ := takeSign_split (s.dropWhile isSpace)
  simp only [strtoull, Option.map_eq_some_iff] at h
  obtain ⟨⟨n, rest⟩, hleading, rfl⟩ := h
  simp only at hrest hrange
  subst hrest
  refine ⟨s.takeWhile isSpace, sign, _, n, ?_, ?_, hsign, leading_whole_iff.1 hleading, ?_⟩
  · rw [← hsplit, List.takeWhile_append_dropWhile]
  · exact fun c hc => List.mem_takeWhile_imp hc
  · simpa using hrange

end CInteger
