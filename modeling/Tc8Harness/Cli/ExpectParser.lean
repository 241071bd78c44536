import Tc8Harness.Lib.CInteger

/-!
# Expectation values

The value parsers of `cli/expect_parser.cpp`. A numeric value goes through `strtoull` with base 0; MAC
addresses and payloads are colon-separated groups of hex digits read by hand. Each parser writes its
target only when it accepts; `applyField` is the setter of one key over its kind. `inet_pton` and the
enumeration tables are parameters.

`expectation_values_exact_iff` is the contract: each parser accepts its grammar and nothing else, but
for the numbers that carry blanks or a sign before them or a NUL after them, which `strtoull` reads.
-/

namespace Tc8Harness.Cli

open CInteger

/-! ## Parsers -/

/-- `c_str()`: a C string ends at its first NUL. -/
def cString (s : List Char) : List Char := s.takeWhile (· ≠ '\x00')

def parseNumeric (text : List Char) (out : UInt64) : Bool × UInt64 :=
  if text = [] then (false, out)
  else
    match strtoull (cString text) with
    | none => (false, out)
    | some c => if c.rangeError ∨ c.rest ≠ [] then (false, out) else (true, c.value)

/-- `inetPton` stands for `inet_pton(AF_INET, …)`. -/
def parseIpv4Dotted (inetPton : List Char → Option UInt32) (text : List Char) (out : UInt32) :
    Bool × UInt32 :=
  if text = [] then (false, out)
  else
    match inetPton (cString text) with
    | none => (false, out)
    | some addr => (true, addr)

/-- One or two hex digits; the digits are shifted in. -/
def parseHexOctet (octet : List Char) : Option UInt8 :=
  if octet = [] ∨ octet.length > 2 then none
  else octet.foldlM (fun value c => (digitValue c).map fun d => (value <<< 4) ||| UInt8.ofNat d) 0

/-- The cursor loop of `parseMac` and `applyPayload`: at most `room` groups, up to the end of the text.
-/
def readGroups : Nat → List Char → List UInt8 → Option (List UInt8)
  | 0, _, _ => none
  | room + 1, text, octets =>
    match parseHexOctet (text.takeWhile (· ≠ ':')) with
    | none => none
    | some b =>
      match text.dropWhile (· ≠ ':') with
      | [] => some (octets ++ [b])
      | _ :: rest => readGroups room rest (octets ++ [b])

def parseMac (text : List Char) (out : List UInt8) : Bool × List UInt8 :=
  match readGroups 6 text [] with
  | none => (false, out)
  | some octets => if octets.length ≠ 6 then (false, out) else (true, octets)

def kMaxExpectedPayload : Nat := 256

structure ExpectedPayload where
  payload : List UInt8 := List.replicate kMaxExpectedPayload 0
  payloadLen : UInt32 := 0
  deriving DecidableEq, Repr

/-- The payload array keeps its size: the octets read stand before zeros. -/
def applyPayload (val : List Char) (e : ExpectedPayload) : Bool × ExpectedPayload :=
  if val = [] then (false, e)
  else
    match readGroups kMaxExpectedPayload val [] with
    | none => (false, e)
    | some octets =>
      (true, { payload := octets ++ List.replicate (kMaxExpectedPayload - octets.length) 0
               payloadLen := UInt32.ofNat octets.length })

/-! ## Fields -/

inductive EKind where
  | u8
  | u16
  | u24
  | u32
  | ipv4
  | mac
  | optU32
  | optU32Min1
  | optText
  | optVlanId
  | optEnum
  deriving DecidableEq, Repr

/-- The type of the member a kind targets; `ε` is the enumeration of an `OPT_ENUM` key. -/
def EKind.Member (ε : Type) : EKind → Type
  | .u8 => UInt8
  | .u16 => UInt16
  | .u24 | .u32 | .ipv4 => UInt32
  | .mac => List UInt8
  | .optU32 | .optU32Min1 => Option UInt32
  | .optText => Option (List Char)
  | .optVlanId => Option UInt16
  | .optEnum => Option ε

def ekindMax : EKind → UInt64
  | .u8 => 0xFF
  | .u16 => 0xFFFF
  | .u24 => 0xFFFFFF
  | .u32 => 0xFFFFFFFF
  | _ => 0

/-- The numeric kinds: a number within `ok` is stored, cut to the member's width by `cast`. -/
def applyNumeric {M : Type} (ok : UInt64 → Bool) (cast : UInt64 → M) (v : List Char) (member : M) :
    Bool × M :=
  let (parsed, n) := parseNumeric v 0
  if !parsed || !ok n then (false, member) else (true, cast n)

def applyField {ε : Type} (inetPton : List Char → Option UInt32)
    (parseDeclarationEnum : List Char → Option ε) :
    (k : EKind) → List Char → k.Member ε → Bool × k.Member ε
  | .ipv4, v, member =>
    let (parsed, ip) := parseIpv4Dotted inetPton v 0
    if !parsed then (false, member) else (true, ip)
  | .mac, v, member => parseMac v member
  | .optU32, v, member => applyNumeric (· ≤ 0xFFFFFFFF) (fun n => some n.toUInt32) v member
  | .optU32Min1, v, member =>
    applyNumeric (fun n => n ≤ 0xFFFFFFFF && n != 0) (fun n => some n.toUInt32) v member
  | .optText, v, member => if v = [] then (false, member) else (true, some v)
  | .optEnum, v, member =>
    match parseDeclarationEnum v with
    | none => (false, member)
    | some value => (true, some value)
  | .optVlanId, v, member =>
    applyNumeric (fun n => 1 ≤ n && n ≤ 4094) (fun n => some n.toUInt16) v member
  | .u8, v, member => applyNumeric (· ≤ ekindMax .u8) UInt64.toUInt8 v member
  | .u16, v, member => applyNumeric (· ≤ ekindMax .u16) UInt64.toUInt16 v member
  | .u24, v, member => applyNumeric (· ≤ ekindMax .u24) UInt64.toUInt32 v member
  | .u32, v, member => applyNumeric (· ≤ ekindMax .u32) UInt64.toUInt32 v member

/-! ### A rejected value leaves its target -/

theorem parseNumeric_rejected {text : List Char} {out : UInt64}
    (h : (parseNumeric text out).1 = false) : (parseNumeric text out).2 = out := by
  unfold parseNumeric at h ⊢
  split
  · rfl
  · split
    · rfl
    · split
      · rfl
      · simp_all

theorem parseMac_rejected {text : List Char} {out : List UInt8}
    (h : (parseMac text out).1 = false) : (parseMac text out).2 = out := by
  unfold parseMac at h ⊢
  split
  · rfl
  · split
    · rfl
    · simp_all

theorem applyPayload_rejected {val : List Char} {e : ExpectedPayload}
    (h : (applyPayload val e).1 = false) : (applyPayload val e).2 = e := by
  unfold applyPayload at h ⊢
  split
  · rfl
  · split
    · rfl
    · simp_all

theorem applyNumeric_rejected {M : Type} {ok : UInt64 → Bool} {cast : UInt64 → M} {v : List Char}
    {member : M} (h : (applyNumeric ok cast v member).1 = false) :
    (applyNumeric ok cast v member).2 = member := by
  unfold applyNumeric at h ⊢
  split
  split
  · rfl
  · simp_all

theorem applyField_rejected {ε : Type} {inetPton : List Char → Option UInt32}
    {parseDeclarationEnum : List Char → Option ε} {k : EKind} {v : List Char} {member : k.Member ε}
    (h : (applyField inetPton parseDeclarationEnum k v member).1 = false) :
    (applyField inetPton parseDeclarationEnum k v member).2 = member := by
  cases k with
  | u8 | u16 | u24 | u32 | optU32 | optU32Min1 | optVlanId => exact applyNumeric_rejected h
  | mac => exact parseMac_rejected h
  | ipv4 =>
    dsimp only [applyField] at h ⊢
    split
    · rfl
    · simp_all
  | optText =>
    dsimp only [applyField] at h ⊢
    split
    · rfl
    · simp_all
  | optEnum =>
    dsimp only [applyField] at h ⊢
    split
    · rfl
    · simp_all

/-! ## Groups of hex digits -/

/-- One or two hex digits and their value. -/
structure HexOctet (group : List Char) (b : UInt8) : Prop where
  length : group.length = 1 ∨ group.length = 2
  digits : ∀ c ∈ group, isDigitIn 16 c = true
  value : b.toNat = digitsValue 16 group

/-- Groups with colons between them, and their octets in order. -/
inductive Grouped : List Char → List UInt8 → Prop
  | last {group : List Char} {b : UInt8} (h : HexOctet group b) : Grouped group [b]
  | more {group rest : List Char} {b : UInt8} {bs : List UInt8} (h : HexOctet group b)
      (hrest : Grouped rest bs) : Grouped (group ++ ':' :: rest) (b :: bs)

theorem isDigitIn_iff {c : Char} : isDigitIn 16 c = true ↔ ∃ d, digitValue c = some d := by
  unfold isDigitIn
  cases h : digitValue c with
  | none => simp
  | some d => simp [digitValue_lt h]

theorem shiftIn_toNat {d e : Nat} (hd : d < 16) (he : e < 16) :
    ((((0 : UInt8) <<< 4 ||| UInt8.ofNat d) <<< 4) ||| UInt8.ofNat e).toNat = d * 16 + e := by
  have hall : ∀ d < 16, ∀ e < 16,
      ((((0 : UInt8) <<< 4 ||| UInt8.ofNat d) <<< 4) ||| UInt8.ofNat e).toNat = d * 16 + e := by
    decide +kernel
  exact hall d hd e he

theorem shiftIn_zero_toNat {d : Nat} (hd : d < 16) :
    ((0 : UInt8) <<< 4 ||| UInt8.ofNat d).toNat = d := by
  have hall : ∀ d < 16, ((0 : UInt8) <<< 4 ||| UInt8.ofNat d).toNat = d := by
    decide
  exact hall d hd

theorem parseHexOctet_one {c : Char} {b : UInt8} :
    parseHexOctet [c] = some b ↔ ∃ d, digitValue c = some d ∧ b.toNat = d := by
  have hfold : parseHexOctet [c] =
      (digitValue c).map fun d => ((0 : UInt8) <<< 4 ||| UInt8.ofNat d) := by
    simp [parseHexOctet]
  rw [hfold, Option.map_eq_some_iff]
  constructor
  · rintro ⟨d, hd, rfl⟩
    exact ⟨d, hd, shiftIn_zero_toNat (digitValue_lt hd)⟩
  · rintro ⟨d, hd, hb⟩
    refine ⟨d, hd, UInt8.toNat_inj.1 ?_⟩
    rw [shiftIn_zero_toNat (digitValue_lt hd), hb]

theorem parseHexOctet_two {c c' : Char} {b : UInt8} :
    parseHexOctet [c, c'] = some b ↔
      ∃ d e, digitValue c = some d ∧ digitValue c' = some e ∧ b.toNat = d * 16 + e := by
  have hfold : parseHexOctet [c, c'] =
      (digitValue c).bind fun d => (digitValue c').map fun e =>
        (((0 : UInt8) <<< 4 ||| UInt8.ofNat d) <<< 4) ||| UInt8.ofNat e := by
    cases hc : digitValue c <;> simp [parseHexOctet, hc]
  rw [hfold, Option.bind_eq_some_iff]
  constructor
  · rintro ⟨d, hd, h⟩
    obtain ⟨e, he, rfl⟩ := Option.map_eq_some_iff.1 h
    exact ⟨d, e, hd, he, shiftIn_toNat (digitValue_lt hd) (digitValue_lt he)⟩
  · rintro ⟨d, e, hd, he, hb⟩
    refine ⟨d, hd, Option.map_eq_some_iff.2 ⟨e, he, UInt8.toNat_inj.1 ?_⟩⟩
    rw [shiftIn_toNat (digitValue_lt hd) (digitValue_lt he), hb]

theorem parseHexOctet_iff {group : List Char} {b : UInt8} :
    parseHexOctet group = some b ↔ HexOctet group b := by
  match group with
  | [] => exact ⟨fun h => by simp [parseHexOctet] at h, fun h => by simpa using h.length⟩
  | [c] =>
    rw [parseHexOctet_one]
    constructor
    · rintro ⟨d, hd, hb⟩
      exact ⟨.inl rfl, by simpa using isDigitIn_iff.2 ⟨d, hd⟩, by simp [digitsValue, hd, hb]⟩
    · intro h
      obtain ⟨d, hd⟩ := isDigitIn_iff.1 (h.digits c (by simp))
      exact ⟨d, hd, by simpa [digitsValue, hd] using h.value⟩
  | [c, c'] =>
    rw [parseHexOctet_two]
    constructor
    · rintro ⟨d, e, hd, he, hb⟩
      refine ⟨.inr rfl, ?_, by simp [digitsValue, hd, he, hb]⟩
      simpa using ⟨isDigitIn_iff.2 ⟨d, hd⟩, isDigitIn_iff.2 ⟨e, he⟩⟩
    · intro h
      obtain ⟨d, hd⟩ := isDigitIn_iff.1 (h.digits c (by simp))
      obtain ⟨e, he⟩ := isDigitIn_iff.1 (h.digits c' (by simp))
      exact ⟨d, e, hd, he, by simpa [digitsValue, hd, he] using h.value⟩
  | _ :: _ :: _ :: _ =>
    exact ⟨fun h => by simp [parseHexOctet] at h, fun h => by simpa using h.length⟩

theorem HexOctet.no_colon {group : List Char} {b : UInt8} (h : HexOctet group b) :
    ∀ c ∈ group, decide (c ≠ ':') = true := by
  intro c hc
  rw [decide_eq_true_eq]
  rintro rfl
  exact absurd (h.digits _ hc) (by decide)

theorem Grouped.split {text : List Char} {bs : List UInt8} (h : Grouped text bs) :
    ∃ b bs', bs = b :: bs' ∧ HexOctet (text.takeWhile (· ≠ ':')) b ∧
      (text.dropWhile (· ≠ ':') = [] ∧ bs' = [] ∨
        ∃ rest, text.dropWhile (· ≠ ':') = ':' :: rest ∧ Grouped rest bs') := by
  cases h with
  | @last group b h =>
    have htake := List.takeWhile_eq_self_iff.2 h.no_colon
    have hdrop := List.dropWhile_eq_nil_iff.2 h.no_colon
    exact ⟨b, [], rfl, by rwa [htake], .inl ⟨hdrop, rfl⟩⟩
  | @more group rest b bs h hrest =>
    have htake : (group ++ ':' :: rest).takeWhile (· ≠ ':') = group := by
      rw [List.takeWhile_append_of_pos h.no_colon, List.takeWhile_cons_of_neg (by decide),
        List.append_nil]
    have hdrop : (group ++ ':' :: rest).dropWhile (· ≠ ':') = ':' :: rest := by
      rw [List.dropWhile_append_of_pos h.no_colon, List.dropWhile_cons_of_neg (by decide)]
    exact ⟨b, bs, rfl, by rwa [htake], .inr ⟨rest, hdrop, hrest⟩⟩

/-- **The cursor loop** reads a text of at most `room` groups to its end. -/
theorem readGroups_iff {room : Nat} {text : List Char} {octets out : List UInt8} :
    readGroups room text octets = some out ↔
      ∃ bs, Grouped text bs ∧ bs.length ≤ room ∧ out = octets ++ bs := by
  induction room generalizing text octets with
  | zero =>
    refine ⟨nofun, ?_⟩
    rintro ⟨bs, hbs, hlen, -⟩
    cases hbs <;> simp at hlen
  | succ room ih =>
    rw [readGroups]
    constructor
    · intro h
      have htext : text.takeWhile (· ≠ ':') ++ text.dropWhile (· ≠ ':') = text :=
        List.takeWhile_append_dropWhile
      split at h
      · cases h
      · next b hb =>
        have hoctet := parseHexOctet_iff.1 hb
        split at h
        · next hdrop =>
          cases h
          rw [hdrop, List.append_nil] at htext
          rw [htext] at hoctet
          exact ⟨[b], .last hoctet, by simp, rfl⟩
        · next x rest hdrop =>
          obtain ⟨bs, hbs, hlen, rfl⟩ := ih.1 h
          obtain rfl : x = ':' := by
            have hhead := List.head?_dropWhile_not (· ≠ ':') text
            rw [hdrop] at hhead
            simpa using hhead
          rw [hdrop] at htext
          refine ⟨b :: bs, ?_, by simpa using hlen, by simp⟩
          rw [← htext]
          exact .more hoctet hbs
    · rintro ⟨bs, hbs, hlen, rfl⟩
      obtain ⟨b, bs', rfl, hoctet, hrest⟩ := hbs.split
      rw [parseHexOctet_iff.2 hoctet]
      rcases hrest with ⟨hdrop, rfl⟩ | ⟨rest, hdrop, hgrouped⟩
      · simp only [hdrop]
      · simp only [hdrop]
        exact ih.2 ⟨bs', hgrouped, by simpa using hlen, by simp⟩

theorem parseMac_iff {text : List Char} {out octets : List UInt8} :
    parseMac text out = (true, octets) ↔ Grouped text octets ∧ octets.length = 6 := by
  unfold parseMac
  constructor
  · intro h
    split at h
    · cases h
    · next bs hbs =>
      split at h
      · cases h
      · next hsix =>
        cases h
        obtain ⟨_, hgrouped, -, rfl⟩ := readGroups_iff.1 hbs
        exact ⟨hgrouped, Classical.not_not.1 hsix⟩
  · rintro ⟨hgrouped, hsix⟩
    have hread : readGroups 6 text [] = some octets :=
      readGroups_iff.2 ⟨octets, hgrouped, hsix.le, rfl⟩
    simp [hread, hsix]

/-- The members a payload of these octets fills. -/
def payloadOf (octets : List UInt8) : ExpectedPayload :=
  { payload := octets ++ List.replicate (kMaxExpectedPayload - octets.length) 0
    payloadLen := UInt32.ofNat octets.length }

theorem applyPayload_iff {val : List Char} {e e' : ExpectedPayload} :
    applyPayload val e = (true, e') ↔ ∃ octets, Grouped val octets ∧
      octets.length ≤ kMaxExpectedPayload ∧ e' = payloadOf octets := by
  unfold applyPayload
  constructor
  · intro h
    split at h
    · cases h
    · split at h
      · cases h
      · next octets hread =>
        cases h
        obtain ⟨_, hgrouped, hlen, rfl⟩ := readGroups_iff.1 hread
        exact ⟨_, hgrouped, hlen, rfl⟩
  · rintro ⟨octets, hgrouped, hlen, rfl⟩
    have hread : readGroups kMaxExpectedPayload val [] = some octets :=
      readGroups_iff.2 ⟨octets, hgrouped, hlen, rfl⟩
    have hne : val ≠ [] := by
      rintro rfl
      obtain ⟨b, -, -, hoctet, -⟩ := hgrouped.split
      simpa using hoctet.length
    rw [if_neg hne, hread]
    rfl

/-! ## Numbers -/

/-- What `parseNumeric` reads: blanks, a sign, a constant of 64 bits, and nothing or a NUL with
anything behind it. -/
structure Readable (text blanks sign digits tail : List Char) (n : Nat) : Prop where
  text : text = blanks ++ (sign ++ digits) ++ tail
  blanks : ∀ c ∈ blanks, isSpace c = true
  sign : IsSign sign
  digits : Constant digits n
  small : n < 2 ^ 64
  tail : tail = [] ∨ tail.head? = some '\x00'

/-- A number that `parseNumeric` reads although it is no plain constant. -/
def Decorated (text : List Char) : Prop :=
  ∃ blanks sign digits tail n, Readable text blanks sign digits tail n ∧
    ¬ (blanks = [] ∧ sign = [] ∧ tail = [])

theorem Readable.cString_eq {text blanks sign digits tail : List Char} {n : Nat}
    (h : Readable text blanks sign digits tail n) : cString text = blanks ++ (sign ++ digits) := by
  have hbefore : ∀ c ∈ blanks ++ (sign ++ digits), decide (c ≠ '\x00') = true := by
    intro c hc
    rw [decide_eq_true_eq]
    rintro rfl
    rcases List.mem_append.1 hc with hblank | hc
    · exact absurd (h.blanks _ hblank) (by decide)
    · rcases List.mem_append.1 hc with hsign | hdigit
      · rcases h.sign with rfl | rfl | rfl <;> simp at hsign
      · exact (h.digits.plain _ hdigit).2.2.2 rfl
  have htail : tail.takeWhile (· ≠ '\x00') = [] := by
    rcases h.tail with rfl | hnul
    · rfl
    · cases tail with
      | nil => rfl
      | cons c cs =>
        obtain rfl : c = '\x00' := by simpa using hnul
        exact List.takeWhile_cons_of_neg (by decide)
  rw [cString, h.text, List.takeWhile_append_of_pos hbefore, htail, List.append_nil]

theorem Readable.parseNumeric_eq {text blanks sign digits tail : List Char} {n : Nat}
    (h : Readable text blanks sign digits tail n) (out : UInt64) :
    parseNumeric text out =
      (true, if sign = ['-'] then 0 - UInt64.ofNat n else UInt64.ofNat n) := by
  have hne : text ≠ [] := by
    rintro rfl
    have hempty := List.append_eq_nil_iff.1 h.text.symm
    exact h.digits.ne_nil (List.append_eq_nil_iff.1 (List.append_eq_nil_iff.1 hempty.1).2).2
  have hsmall : ¬ 2 ^ 64 ≤ n := Nat.not_le.2 h.small
  rw [parseNumeric, if_neg hne, h.cString_eq, strtoull_constant h.blanks h.sign h.digits]
  simp only [hsmall, decide_false, Bool.false_eq_true, ne_eq, not_true_eq_false, or_false, if_false]

theorem parseNumeric_readable {text : List Char} {out : UInt64}
    (h : (parseNumeric text out).1 = true) :
    ∃ blanks sign digits tail n, Readable text blanks sign digits tail n := by
  unfold parseNumeric at h
  split at h
  · cases h
  · split at h
    · cases h
    · next c hc =>
      split at h
      · cases h
      · next hwhole =>
        rw [not_or, Bool.not_eq_true, Classical.not_not] at hwhole
        obtain ⟨blanks, sign, digits, n, hs, hblanks, hsign, hdigits, hn⟩ :=
          strtoull_whole hc hwhole.1 hwhole.2
        refine ⟨blanks, sign, digits, text.dropWhile (· ≠ '\x00'), n, ?_, hblanks, hsign, hdigits,
          hn, ?_⟩
        · rw [← hs, cString, List.takeWhile_append_dropWhile]
        · cases hdrop : text.dropWhile (· ≠ '\x00') with
          | nil => exact .inl rfl
          | cons c cs =>
            have hhead := List.head?_dropWhile_not (· ≠ '\x00') text
            rw [hdrop] at hhead
            exact .inr (by simpa using hhead)

/-- Blanks, signs and NULs stand in no constant. -/
theorem Decorated.not_constant {text : List Char} (h : Decorated text) (n : Nat) :
    ¬ Constant text n := by
  intro hconst
  obtain ⟨blanks, sign, digits, tail, m, hr, hplain⟩ := h
  have hmem : ∀ c ∈ text, isSpace c = false ∧ c ≠ '+' ∧ c ≠ '-' ∧ c ≠ '\x00' := hconst.plain
  rw [hr.text] at hmem
  apply hplain
  refine ⟨?_, ?_, ?_⟩
  · cases hb : blanks with
    | nil => rfl
    | cons c cs =>
      have hspace := hr.blanks c (by simp [hb])
      rw [(hmem c (by simp [hb])).1] at hspace
      cases hspace
  · rcases hr.sign with rfl | rfl | rfl
    · rfl
    · exact absurd rfl (hmem '+' (by simp)).2.1
    · exact absurd rfl (hmem '-' (by simp)).2.2.1
  · rcases hr.tail with rfl | hnul
    · rfl
    · exact absurd rfl (hmem '\x00' (by simp [List.mem_of_head? hnul])).2.2.2

/-! ## The contract -/

/-- What the parsers owe a text: the numeric parser accepts the constants of 64 bits and gives their
value, the other two accept their groups of hex digits and give the octets in order, and a text that is
rejected leaves its target as it is. -/
structure ParsedExactly {ε : Type} (inetPton : List Char → Option UInt32)
    (parseDeclarationEnum : List Char → Option ε) (text : List Char) : Prop where
  numeric : ∀ out v, parseNumeric text out = (true, v) ↔ Constant text v.toNat
  mac : ∀ out octets, parseMac text out = (true, octets) ↔ Grouped text octets ∧ octets.length = 6
  payload : ∀ e e', applyPayload text e = (true, e') ↔ ∃ octets, Grouped text octets ∧
    1 ≤ octets.length ∧ octets.length ≤ kMaxExpectedPayload ∧ e' = payloadOf octets
  numericLeft : ∀ out, (parseNumeric text out).1 = false → (parseNumeric text out).2 = out
  macLeft : ∀ out, (parseMac text out).1 = false → (parseMac text out).2 = out
  payloadLeft : ∀ e, (applyPayload text e).1 = false → (applyPayload text e).2 = e
  fieldLeft : ∀ k member, (applyField inetPton parseDeclarationEnum k text member).1 = false →
    (applyField inetPton parseDeclarationEnum k text member).2 = member

theorem Grouped.length_pos {text : List Char} {octets : List UInt8} (h : Grouped text octets) :
    1 ≤ octets.length := by
  cases h <;> simp

theorem parseNumeric_iff {text : List Char} (h : ¬ Decorated text) (out v : UInt64) :
    parseNumeric text out = (true, v) ↔ Constant text v.toNat := by
  constructor
  · intro hparse
    obtain ⟨blanks, sign, digits, tail, n, hr⟩ := parseNumeric_readable (by rw [hparse])
    obtain ⟨rfl, rfl, rfl⟩ : blanks = [] ∧ sign = [] ∧ tail = [] := by
      by_contra hplain
      exact h ⟨blanks, sign, digits, tail, n, hr, hplain⟩
    have heq := (hr.parseNumeric_eq out).symm.trans hparse
    rw [if_neg (by decide), Prod.mk.injEq] at heq
    have htext := hr.text
    simp only [List.nil_append, List.append_nil] at htext
    rw [htext, ← heq.2, UInt64.toNat_ofNat_of_lt' hr.small]
    exact hr.digits
  · intro hconst
    have hr : Readable text [] [] text [] v.toNat :=
      ⟨by simp, by simp, .inl rfl, hconst, v.toNat_lt, .inl rfl⟩
    rw [hr.parseNumeric_eq, if_neg (by decide), UInt64.ofNat_toNat]

/-- **Expectation values are parsed exactly** but for the decorated numbers, which are read. -/
theorem expectation_values_exact_iff {ε : Type} (inetPton : List Char → Option UInt32)
    (parseDeclarationEnum : List Char → Option ε) (text : List Char) :
    ParsedExactly inetPton parseDeclarationEnum text ↔ ¬ Decorated text := by
  constructor
  · intro h hdecorated
    obtain ⟨blanks, sign, digits, tail, n, hr, -⟩ := id hdecorated
    exact hdecorated.not_constant _ ((h.numeric 0 _).1 (hr.parseNumeric_eq 0))
  · intro h
    refine ⟨parseNumeric_iff h, fun _ _ => parseMac_iff, ?_, fun _ => parseNumeric_rejected,
      fun _ => parseMac_rejected, fun _ => applyPayload_rejected, fun _ _ => applyField_rejected⟩
    intro e e'
    rw [applyPayload_iff]
    constructor
    · rintro ⟨octets, hgrouped, hlen, rfl⟩
      exact ⟨octets, hgrouped, hgrouped.length_pos, hlen, rfl⟩
    · rintro ⟨octets, hgrouped, -, hlen, rfl⟩
      exact ⟨octets, hgrouped, hlen, rfl⟩

/-- `-1`, ` 42` and `42` before a NUL are numbers to the parser. -/
theorem minus_one_is_parsed :
    parseNumeric "-1".toList 0 = (true, 0xFFFFFFFFFFFFFFFF) ∧
      parseNumeric " 42".toList 0 = (true, 42) ∧
      parseNumeric "42\x00junk".toList 0 = (true, 42) ∧
      ¬ ParsedExactly (fun _ => none) (fun _ => (none : Option Unit)) "-1".toList := by
  refine ⟨by decide, by decide, by decide, fun h => ?_⟩
  have hconst := (h.numeric 0 0xFFFFFFFFFFFFFFFF).1 (by decide)
  exact (hconst.plain '-' (by decide)).2.2.1 rfl

end Tc8Harness.Cli
