import Mathlib

/-!
# Case identity: suites, tokens and the registry

`sce_integration/case_suite.h`, the lookups of `sce_integration/case_registry.cpp` and the token
resolution of `TestCommand::runCase`. A case is identified by its suite and its id, both compared
without regard to ASCII case. A token `suite:ID` names one case; a bare token names the case of that
id that is the only one across the suites.

`sameCase_iff` says when two tokens name one case: they are spelled alike up to ASCII case, or one
is bare and the other qualifies it with the default suite or with the suite the bare token is found
in.
-/

namespace Tc8Harness.Sce

/-! ## ASCII case -/

def toUpperText (s : List Char) : List Char := s.map Char.toUpper

/-- Equal lengths and equal upper-cased characters, position by position. -/
def equalsIgnoreAsciiCase (a b : List Char) : Bool :=
  a.length == b.length && (a.zip b).all fun p => p.1.toUpper == p.2.toUpper

theorem equalsIgnoreAsciiCase_iff (a b : List Char) :
    equalsIgnoreAsciiCase a b = true ↔ toUpperText a = toUpperText b := by
  unfold equalsIgnoreAsciiCase toUpperText
  induction a generalizing b with
  | nil => cases b <;> simp
  | cons x xs ih =>
    cases b with
    | nil => simp
    | cons y ys =>
      have := ih ys
      simp only [Bool.and_eq_true, beq_iff_eq] at this
      simp only [List.length_cons, List.zip_cons_cons, List.all_cons, Bool.and_eq_true, beq_iff_eq,
        Nat.add_right_cancel_iff, List.map_cons, List.cons.injEq, ← this]
      tauto

/-! ## Suites -/

def kDefaultSuite : List Char := "tc8".toList

def canonicalSuite (suite : List Char) : List Char := suite.map Char.toLower

def isDefaultSuite (suite : List Char) : Bool := canonicalSuite suite == kDefaultSuite

structure QualifiedCaseId where
  /-- Empty when the token carried no qualifier. -/
  suite : List Char
  id : List Char
  deriving DecidableEq, Repr

/-- A token is split at its first colon. -/
def splitQualifiedCaseId (token : List Char) : QualifiedCaseId :=
  if ':' ∈ token then
    ⟨token.takeWhile (· ≠ ':'), (token.dropWhile (· ≠ ':')).tail⟩
  else ⟨[], token⟩

def qualifiedCaseId (suite id : List Char) : List Char :=
  if isDefaultSuite suite then id else suite ++ ':' :: id

/-- `[A-Za-z_][A-Za-z0-9_]*` -/
def isWellFormedSuite : List Char → Bool
  | [] => false
  | c :: cs => (c.isAlpha || c == '_') && cs.all fun c => c.isAlpha || c == '_' || c.isDigit

/-- Lower-casing and upper-casing identify the same texts. -/
theorem canonicalSuite_eq_iff (a b : List Char) :
    canonicalSuite a = canonicalSuite b ↔ toUpperText a = toUpperText b := by
  unfold canonicalSuite toUpperText
  constructor
  · intro h
    simpa [Function.comp_def] using congrArg (List.map Char.toUpper) h
  · intro h
    simpa [Function.comp_def] using congrArg (List.map Char.toLower) h

/-- Splitting undoes the join of a suite and an id. -/
theorem splitQualifiedCaseId_append {suite : List Char} (hsuite : ':' ∉ suite) (id : List Char) :
    splitQualifiedCaseId (suite ++ ':' :: id) = ⟨suite, id⟩ := by
  have hall : ∀ c ∈ suite, decide (c ≠ ':') = true := fun c hc =>
    decide_eq_true fun heq => hsuite (heq ▸ hc)
  unfold splitQualifiedCaseId
  rw [if_pos (by simp), List.takeWhile_append_of_pos hall, List.dropWhile_append_of_pos hall]
  simp

/-- A qualified token is its suite, a colon and its id. -/
theorem eq_of_splitQualifiedCaseId {token : List Char}
    (h : (splitQualifiedCaseId token).suite ≠ []) :
    token = (splitQualifiedCaseId token).suite ++ ':' :: (splitQualifiedCaseId token).id := by
  by_cases hcolon : ':' ∈ token
  · obtain ⟨a, b, rfl, ha⟩ := List.eq_append_cons_of_mem hcolon
    rw [splitQualifiedCaseId_append ha]
  · rw [splitQualifiedCaseId, if_neg hcolon] at h
    exact absurd rfl h

theorem toUpper_eq_colon_iff (c : Char) : c.toUpper = ':' ↔ c = ':' := by
  by_cases hlow : c.isLower = true
  · refine iff_of_false (fun h => ?_) (fun h => by simp [h] at hlow)
    have hup : c.toUpper.isUpper = true := by
      rw [Char.isUpper_toUpper_eq_isAlpha]
      simp [Char.isAlpha, hlow]
    rw [h] at hup
    simp at hup
  · rw [Char.toUpper_eq_of_not_isLower hlow]

/-- Upper-casing moves no colon. -/
theorem splitQualifiedCaseId_toUpperText (token : List Char) :
    splitQualifiedCaseId (toUpperText token) =
      ⟨toUpperText (splitQualifiedCaseId token).suite,
        toUpperText (splitQualifiedCaseId token).id⟩ := by
  have hmem : ':' ∈ toUpperText token ↔ ':' ∈ token := by
    simp [toUpperText, toUpper_eq_colon_iff]
  have hpred : (fun c : Char => decide (c ≠ ':')) ∘ Char.toUpper = fun c => decide (c ≠ ':') := by
    funext c
    simp [toUpper_eq_colon_iff]
  unfold splitQualifiedCaseId
  by_cases hcolon : ':' ∈ token
  · rw [if_pos hcolon, if_pos (hmem.2 hcolon)]
    unfold toUpperText
    rw [List.takeWhile_map, List.dropWhile_map, hpred, List.map_tail]
  · rw [if_neg hcolon, if_neg (mt hmem.1 hcolon)]
    rfl

/-- Tokens that are spelled alike up to ASCII case split alike up to ASCII case. -/
theorem toUpperText_suite_and_id {s t : List Char} (h : toUpperText s = toUpperText t) :
    toUpperText (splitQualifiedCaseId s).suite = toUpperText (splitQualifiedCaseId t).suite ∧
      toUpperText (splitQualifiedCaseId s).id = toUpperText (splitQualifiedCaseId t).id := by
  have hsplit := congrArg splitQualifiedCaseId h
  rw [splitQualifiedCaseId_toUpperText, splitQualifiedCaseId_toUpperText] at hsplit
  exact ⟨congrArg QualifiedCaseId.suite hsplit, congrArg QualifiedCaseId.id hsplit⟩

/-! ## The registry -/

structure CaseEntry where
  suite : List Char
  id : List Char
  deriving DecidableEq, Repr

/-- The test both `CaseRegistry::add` and the qualified lookup make. -/
def CaseEntry.isCase (e : CaseEntry) (suite id : List Char) : Bool :=
  equalsIgnoreAsciiCase e.suite suite && equalsIgnoreAsciiCase e.id id

/-- The registered cases, no two of them one (suite, id). -/
structure CaseRegistry where
  entries : List CaseEntry
  distinct : entries.Pairwise fun a b => a.isCase b.suite b.id = false

namespace CaseRegistry

/-- Registration; `none` is the abort on a (suite, id) that is already registered. -/
def add (reg : CaseRegistry) (entry : CaseEntry) : Option CaseRegistry :=
  if h : ∀ existing ∈ reg.entries, existing.isCase entry.suite entry.id = false then
    some
      { entries := reg.entries ++ [entry]
        distinct := List.pairwise_append.2
          ⟨reg.distinct, List.pairwise_singleton _ _, fun a ha _ hb =>
            List.mem_singleton.1 hb ▸ h a ha⟩ }
  else none

/-- The loop of the unqualified lookup: a second entry of the id makes it ambiguous. -/
def findFrom (id : List Char) : Option CaseEntry → List CaseEntry → Option CaseEntry
  | found, [] => found
  | found, e :: es =>
    if equalsIgnoreAsciiCase e.id id then
      match found with
      | some _ => none
      | none => findFrom id (some e) es
    else findFrom id found es

/-- Unqualified lookup: the case of this id, when it is the only one across the suites. -/
def find (reg : CaseRegistry) (id : List Char) : Option CaseEntry := findFrom id none reg.entries

/-- Qualified lookup. -/
def findIn (reg : CaseRegistry) (suite id : List Char) : Option CaseEntry :=
  reg.entries.find? fun e => e.isCase suite id

/-- `TestCommand::runCase`: the entry a `--case` token names, under `--suite` (empty when it is not
given). `none` is the refusal. -/
def resolveCase (reg : CaseRegistry) (suite token : List Char) : Option CaseEntry :=
  let qid := splitQualifiedCaseId token
  if qid.suite ≠ [] ∧ suite ≠ [] ∧ canonicalSuite qid.suite ≠ canonicalSuite suite then none
  else if qid.suite ≠ [] then reg.findIn qid.suite qid.id
  else if suite ≠ [] then reg.findIn suite qid.id
  else reg.find token

theorem findFrom_eq_some_iff (id : List Char) (found : Option CaseEntry) (es : List CaseEntry)
    (e : CaseEntry) :
    findFrom id found es = some e ↔
      found.toList ++ es.filter (fun x => equalsIgnoreAsciiCase x.id id) = [e] := by
  induction es generalizing found with
  | nil => cases found <;> simp [findFrom]
  | cons x xs ih =>
    unfold findFrom
    by_cases hx : equalsIgnoreAsciiCase x.id id = true
    · rw [if_pos hx, List.filter_cons, if_pos hx]
      cases found with
      | some f => simp
      | none => simp [ih]
    · rw [if_neg hx, List.filter_cons, if_neg hx, ih]

/-- The unqualified lookup finds the one entry of the id. -/
theorem find_eq_some_iff (reg : CaseRegistry) (id : List Char) (e : CaseEntry) :
    reg.find id = some e ↔
      reg.entries.filter (fun x => equalsIgnoreAsciiCase x.id id) = [e] := by
  unfold find
  rw [findFrom_eq_some_iff]
  simp

theorem find_spec {reg : CaseRegistry} {id : List Char} {e : CaseEntry}
    (h : reg.find id = some e) :
    e ∈ reg.entries ∧ toUpperText e.id = toUpperText id ∧
      ∀ x ∈ reg.entries, toUpperText x.id = toUpperText id → x = e := by
  rw [find_eq_some_iff] at h
  have hmem : ∀ x, x ∈ reg.entries ∧ toUpperText x.id = toUpperText id ↔ x = e := by
    intro x
    have hx : x ∈ [e] ↔ x = e := List.mem_singleton
    rw [← hx, ← h, List.mem_filter, equalsIgnoreAsciiCase_iff]
  obtain ⟨he, hid⟩ := (hmem e).2 rfl
  exact ⟨he, hid, fun x hx hxid => (hmem x).1 ⟨hx, hxid⟩⟩

theorem findIn_spec {reg : CaseRegistry} {suite id : List Char} {e : CaseEntry}
    (h : reg.findIn suite id = some e) :
    toUpperText e.suite = toUpperText suite ∧ toUpperText e.id = toUpperText id := by
  have := List.find?_some h
  rwa [CaseEntry.isCase, Bool.and_eq_true, equalsIgnoreAsciiCase_iff,
    equalsIgnoreAsciiCase_iff] at this

/-- Where the unqualified lookup succeeds, qualifying its case finds the same entry. -/
theorem findIn_of_find {reg : CaseRegistry} {suite id id' : List Char} {e : CaseEntry}
    (h : reg.find id = some e) (hsuite : toUpperText e.suite = toUpperText suite)
    (hid : toUpperText id' = toUpperText id) : reg.findIn suite id' = some e := by
  obtain ⟨he, heid, hunique⟩ := find_spec h
  have hcase : e.isCase suite id' = true := by
    rw [CaseEntry.isCase, Bool.and_eq_true, equalsIgnoreAsciiCase_iff, equalsIgnoreAsciiCase_iff]
    exact ⟨hsuite, heid.trans hid.symm⟩
  cases hfind : reg.findIn suite id' with
  | none =>
    have := List.find?_eq_none.1 hfind e he
    exact absurd hcase this
  | some x =>
    rw [hunique x (List.mem_of_find?_eq_some hfind) ((findIn_spec hfind).2.trans hid)]

end CaseRegistry

/-! ## Tokens that name one case -/

/-- A token's case where a bare id belongs to the default suite. -/
def caseKey (token : List Char) : List Char × List Char :=
  let qid := splitQualifiedCaseId token
  if qid.suite = [] then (kDefaultSuite, toUpperText token)
  else (canonicalSuite qid.suite, toUpperText qid.id)

/-- The harness takes the two tokens for one case: they have one key, or they are resolved to one
registered entry. -/
def SameCase (reg : CaseRegistry) (s t : List Char) : Prop :=
  caseKey s = caseKey t ∨ ∃ e, reg.resolveCase [] s = some e ∧ reg.resolveCase [] t = some e

/-- `bare` carries no qualifier, and `qualified` is the same id under the default suite or under the
suite that the lookup of `bare` finds it in. -/
def BareTwin (reg : CaseRegistry) (bare qualified : List Char) : Prop :=
  (splitQualifiedCaseId bare).suite = [] ∧ (splitQualifiedCaseId qualified).suite ≠ [] ∧
    toUpperText (splitQualifiedCaseId qualified).id = toUpperText bare ∧
    (isDefaultSuite (splitQualifiedCaseId qualified).suite = true ∨
      ∃ e, reg.find bare = some e ∧
        equalsIgnoreAsciiCase e.suite (splitQualifiedCaseId qualified).suite = true)

instance (reg : CaseRegistry) (bare qualified : List Char) :
    Decidable (BareTwin reg bare qualified) :=
  haveI : Decidable (∃ e, reg.find bare = some e ∧
      equalsIgnoreAsciiCase e.suite (splitQualifiedCaseId qualified).suite = true) :=
    match reg.find bare with
    | none => isFalse (by simp)
    | some e =>
      decidable_of_iff
        (equalsIgnoreAsciiCase e.suite (splitQualifiedCaseId qualified).suite = true) (by simp)
  inferInstanceAs (Decidable (_ ∧ _ ∧ _ ∧ _))

section SameCase

variable {reg : CaseRegistry} {s t : List Char}

theorem resolveCase_bare (hs : (splitQualifiedCaseId s).suite = []) :
    reg.resolveCase [] s = reg.find s := by
  simp [CaseRegistry.resolveCase, hs]

theorem resolveCase_qualified (hs : (splitQualifiedCaseId s).suite ≠ []) :
    reg.resolveCase [] s =
      reg.findIn (splitQualifiedCaseId s).suite (splitQualifiedCaseId s).id := by
  simp [CaseRegistry.resolveCase, hs]

theorem sameCase_symm (h : SameCase reg s t) : SameCase reg t s := by
  rcases h with hkey | ⟨e, hs, ht⟩
  · exact .inl hkey.symm
  · exact .inr ⟨e, ht, hs⟩

/-- Upper-casing keeps whether a token is qualified. -/
theorem suite_eq_nil_iff (h : toUpperText s = toUpperText t) :
    (splitQualifiedCaseId s).suite = [] ↔ (splitQualifiedCaseId t).suite = [] := by
  have hlen := congrArg List.length (toUpperText_suite_and_id h).1
  simp only [toUpperText, List.length_map] at hlen
  rw [← List.length_eq_zero_iff, ← List.length_eq_zero_iff, hlen]

theorem sameCase_bare_iff (hs : (splitQualifiedCaseId s).suite = [])
    (ht : (splitQualifiedCaseId t).suite = []) :
    SameCase reg s t ↔ toUpperText s = toUpperText t := by
  unfold SameCase caseKey
  rw [resolveCase_bare hs, resolveCase_bare ht, if_pos hs, if_pos ht]
  constructor
  · rintro (hkey | ⟨e, hse, hte⟩)
    · exact congrArg Prod.snd hkey
    · exact (CaseRegistry.find_spec hse).2.1.symm.trans (CaseRegistry.find_spec hte).2.1
  · intro h
    exact .inl (by rw [h])

theorem sameCase_qualified_iff (hs : (splitQualifiedCaseId s).suite ≠ [])
    (ht : (splitQualifiedCaseId t).suite ≠ []) :
    SameCase reg s t ↔ toUpperText s = toUpperText t := by
  unfold SameCase caseKey
  rw [resolveCase_qualified hs, resolveCase_qualified ht, if_neg hs, if_neg ht, Prod.mk.injEq,
    canonicalSuite_eq_iff]
  constructor
  · intro h
    have hparts : toUpperText (splitQualifiedCaseId s).suite =
          toUpperText (splitQualifiedCaseId t).suite ∧
        toUpperText (splitQualifiedCaseId s).id = toUpperText (splitQualifiedCaseId t).id := by
      rcases h with hkey | ⟨e, hse, hte⟩
      · exact hkey
      · have hse := CaseRegistry.findIn_spec hse
        have hte := CaseRegistry.findIn_spec hte
        exact ⟨hse.1.symm.trans hte.1, hse.2.symm.trans hte.2⟩
    rw [eq_of_splitQualifiedCaseId hs, eq_of_splitQualifiedCaseId ht]
    simp only [toUpperText, List.map_append, List.map_cons] at hparts ⊢
    rw [hparts.1, hparts.2]
  · intro h
    exact .inl (toUpperText_suite_and_id h)

theorem sameCase_mixed_iff (hs : (splitQualifiedCaseId s).suite = [])
    (ht : (splitQualifiedCaseId t).suite ≠ []) : SameCase reg s t ↔ BareTwin reg s t := by
  unfold SameCase caseKey BareTwin
  rw [resolveCase_bare hs, resolveCase_qualified ht, if_pos hs, if_neg ht, Prod.mk.injEq]
  constructor
  · rintro (⟨hsuite, hid⟩ | ⟨e, hse, hte⟩)
    · exact ⟨hs, ht, hid.symm, .inl (beq_iff_eq.2 hsuite.symm)⟩
    · have hfound := CaseRegistry.findIn_spec hte
      exact ⟨hs, ht, hfound.2.symm.trans (CaseRegistry.find_spec hse).2.1,
        .inr ⟨e, hse, (equalsIgnoreAsciiCase_iff _ _).2 hfound.1⟩⟩
  · rintro ⟨-, -, hid, hdefault | ⟨e, hse, hsuite⟩⟩
    · exact .inl ⟨(beq_iff_eq.1 hdefault).symm, hid.symm⟩
    · exact .inr ⟨e, hse,
        CaseRegistry.findIn_of_find hse ((equalsIgnoreAsciiCase_iff _ _).1 hsuite) hid⟩

/-- Two tokens name one case exactly when they are spelled alike up to ASCII case, or one is the
bare twin of the other. -/
theorem sameCase_iff :
    SameCase reg s t ↔
      toUpperText s = toUpperText t ∨ BareTwin reg s t ∨ BareTwin reg t s := by
  by_cases hs : (splitQualifiedCaseId s).suite = [] <;>
    by_cases ht : (splitQualifiedCaseId t).suite = []
  · rw [sameCase_bare_iff hs ht]
    simp [BareTwin, hs, ht]
  · have hne : toUpperText s ≠ toUpperText t := fun h => ht ((suite_eq_nil_iff h).1 hs)
    rw [sameCase_mixed_iff hs ht]
    simp [hne, show ¬ BareTwin reg t s from fun h => ht h.1]
  · have hne : toUpperText s ≠ toUpperText t := fun h => hs ((suite_eq_nil_iff h).2 ht)
    have hsymm : SameCase reg s t ↔ SameCase reg t s := ⟨sameCase_symm, sameCase_symm⟩
    rw [hsymm, sameCase_mixed_iff ht hs]
    simp [hne, show ¬ BareTwin reg s t from fun h => hs h.1]
  · rw [sameCase_qualified_iff hs ht]
    simp [BareTwin, hs, ht]

end SameCase

end Tc8Harness.Sce
