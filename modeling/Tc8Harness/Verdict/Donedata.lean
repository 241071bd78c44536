import Tc8Harness.Verdict.Absence

/-!
# Reading a verdict out of donedata

`verdictFromDonedata` of `verdict.h` and the two scanners under it. A final's donedata is a flat JSON
object, stashed bare or as one JSON string. `jsonStringField` looks for the quoted key anywhere in the
text, so a value that spells a key is taken for it: the scanner then reads the value of the field that
comes next (`jsonStringField_text`). `donedata_round_trip_iff` says for which objects that does not
matter.
-/

namespace Tc8Harness.Sce

/-! ## The scanners -/

def verdictClassName : VerdictClass → String
  | .pass => "pass"
  | .fail => "fail"
  | .inconclusive => "inconclusive"
  | .error => "error"
  | .running => "running"

/-- An unknown name is a fail. -/
def verdictClassFromName (name : String) : VerdictClass :=
  if name = "pass" then .pass
  else if name = "fail" then .fail
  else if name = "inconclusive" then .inconclusive
  else if name = "error" then .error
  else if name = "running" then .running
  else .fail

theorem verdictClassFromName_name (c : VerdictClass) :
    verdictClassFromName (verdictClassName c) = c := by
  cases c <;> decide

/-- `json.find(needle)`: what follows the first occurrence. -/
def findAfter (needle : List Char) : List Char → Option (List Char)
  | [] => if needle = [] then some [] else none
  | c :: cs =>
    if needle <+: c :: cs then some ((c :: cs).drop needle.length) else findAfter needle cs

/-- The characters up to the closing quote. A backslash escapes the character after it. -/
def readString : List Char → List Char
  | [] => []
  | '"' :: _ => []
  | '\\' :: c :: cs => c :: readString cs
  | c :: cs => c :: readString cs

def jsonStringField (json key : List Char) : List Char :=
  match findAfter ('"' :: key ++ ['"']) json with
  | none => []
  | some afterKey =>
    match findAfter [':'] afterKey with
    | none => []
    | some afterColon =>
      match afterColon.dropWhile (fun c => c = ' ' ∨ c = '\t') with
      | '"' :: value => readString value
      | _ => []

/-- The body of one JSON string layer. -/
def unquoteBody : List Char → List Char
  | [] => []
  | '"' :: _ => []
  | '\\' :: c :: cs =>
    (if c = 'n' then '\n' else if c = 't' then '\t' else if c = 'r' then '\r' else c) ::
      unquoteBody cs
  | c :: cs => c :: unquoteBody cs

/-- A value that is no JSON string is returned as it is. -/
def jsonUnquote (s : List Char) : List Char :=
  match s.dropWhile (fun c => c = ' ' ∨ c = '\t' ∨ c = '\n' ∨ c = '\r') with
  | '"' :: body => unquoteBody body
  | _ => s

def verdictFromDonedata (donedata : List Char) : Verdict :=
  let obj := jsonUnquote donedata
  let cls := jsonStringField obj "verdict".toList
  if cls = [] then { cls := .running }
  else
    { cls := verdictClassFromName (String.ofList cls)
      reason := String.ofList (jsonStringField obj "reason".toList)
      role := String.ofList (jsonStringField obj "role".toList)
      bound := String.ofList (jsonStringField obj "bound".toList) }

/-! ## Donedata objects -/

inductive DoneKey where
  | verdict
  | reason
  | role
  | bound
  deriving DecidableEq, Repr

def DoneKey.name : DoneKey → String
  | .verdict => "verdict"
  | .reason => "reason"
  | .role => "role"
  | .bound => "bound"

structure DoneField where
  key : DoneKey
  value : String
  deriving DecidableEq, Repr

/-- A letter, a digit or an underscore. -/
def isPlain (c : Char) : Bool := c.isAlphanum || c == '_'

def Identifier (s : String) : Prop := s ≠ "" ∧ s.toList.all isPlain = true

instance (s : String) : Decidable (Identifier s) := inferInstanceAs (Decidable (_ ∧ _))

/-- An authored object: the class under `verdict`, any of the other fields, in any order, each key
once and every value a plain identifier. -/
structure Donedata where
  cls : VerdictClass
  fields : List DoneField
  keys : (fields.map DoneField.key).Nodup
  verdict_mem : ⟨.verdict, verdictClassName cls⟩ ∈ fields
  plain : ∀ f ∈ fields, Identifier f.value

/-- The value a key has in the fields, empty when it has none. -/
def valueOf (key : DoneKey) : List DoneField → String
  | [] => ""
  | f :: fs => if f.key = key then f.value else valueOf key fs

/-- What the object says. -/
def Donedata.verdict (d : Donedata) : Verdict :=
  { cls := d.cls
    reason := valueOf .reason d.fields
    role := valueOf .role d.fields
    bound := valueOf .bound d.fields }

def quoted (s : String) : List Char := '"' :: s.toList ++ ['"']

def DoneField.text (f : DoneField) : List Char := quoted f.key.name ++ ':' :: quoted f.value

/-- The object's text after a field. -/
def tailText : List DoneField → List Char
  | [] => ['}']
  | f :: fs => ',' :: f.text ++ tailText fs

def objectText : List DoneField → List Char
  | [] => ['{', '}']
  | f :: fs => '{' :: f.text ++ tailText fs

/-- One layer of JSON string encoding. -/
def wrapString (s : List Char) : List Char :=
  '"' :: s.flatMap (fun c => if c = '"' ∨ c = '\\' then ['\\', c] else [c]) ++ ['"']

/-! ## The field a search ends at -/

/-- The value of the field that comes first, empty when there is none. -/
def firstValue : List DoneField → String
  | [] => ""
  | f :: _ => f.value

/-- When a value spells `key` and the field of `key` does not come before it: the value of the field
after the first such value. -/
def misread (key : DoneKey) : List DoneField → Option String
  | [] => none
  | f :: fs =>
    if f.key = key then none
    else if f.value = key.name then some (firstValue fs)
    else misread key fs

/-- Where a value spells a key ahead of the key's own field, the field after it has the value that the
key has; for the verdict, a value of the same class. -/
def Readable (d : Donedata) : Prop :=
  (∀ key v, key ≠ .verdict → misread key d.fields = some v → v = valueOf key d.fields) ∧
    ∀ v, misread .verdict d.fields = some v → verdictClassFromName v = d.cls

/-! ### Plain characters -/

theorem isPlain_ne {c x : Char} (h : isPlain c = true) (hx : isPlain x = false) : c ≠ x := by
  rintro rfl
  rw [h] at hx
  cases hx

theorem Identifier.not_mem {s : String} (h : s.toList.all isPlain = true) {x : Char}
    (hx : isPlain x = false) : x ∉ s.toList := by
  intro hmem
  exact isPlain_ne (List.all_eq_true.1 h x hmem) hx rfl

theorem DoneKey.identifier_name (key : DoneKey) : Identifier key.name := by
  cases key <;> decide

theorem DoneKey.name_inj {key key' : DoneKey} : key.name = key'.name ↔ key = key' := by
  cases key <;> cases key' <;> decide

theorem identifier_className (c : VerdictClass) : Identifier (verdictClassName c) := by
  cases c <;> decide

/-! ### Finding a quoted word -/

theorem findAfter_skip {x : Char} (needle rest : List Char) {w : List Char} (h : x ∉ w) :
    findAfter (x :: needle) (w ++ rest) = findAfter (x :: needle) rest := by
  induction w with
  | nil => rfl
  | cons c cs ih =>
    rw [List.mem_cons, not_or] at h
    have hno : ¬ (x :: needle) <+: c :: (cs ++ rest) := by
      rw [List.cons_prefix_cons]
      exact fun hp => h.1 hp.1
    rw [List.cons_append, findAfter, if_neg hno, ih h.2]

theorem append_quote_prefix {key w more : List Char} (hkey : '"' ∉ key) (hw : '"' ∉ w) :
    key ++ ['"'] <+: w ++ '"' :: more ↔ w = key := by
  induction key generalizing w with
  | nil =>
    cases w with
    | nil => simp
    | cons c cs =>
      rw [List.mem_cons, not_or] at hw
      simp [hw.1]
  | cons k ks ih =>
    rw [List.mem_cons, not_or] at hkey
    cases w with
    | nil => simp [List.cons_prefix_cons, Ne.symm hkey.1]
    | cons c cs =>
      rw [List.mem_cons, not_or] at hw
      rw [List.cons_append, List.cons_append, List.cons_prefix_cons, ih hkey.2 hw.2,
        List.cons.injEq, eq_comm]

/-- The search for a key at a quoted word: it ends there, or goes on after the closing quote, which
opens no key because what follows it is no plain character. -/
theorem findAfter_quoted (key : DoneKey) {s : String} (hs : s.toList.all isPlain = true) {c : Char}
    (hc : isPlain c = false) (more : List Char) :
    findAfter (quoted key.name) (quoted s ++ c :: more) =
      if s = key.name then some (c :: more) else findAfter (quoted key.name) (c :: more) := by
  have hquote : isPlain '"' = false := by decide
  have hopens : quoted key.name <+: quoted s ++ c :: more ↔ s = key.name := by
    have hword : key.name.toList ++ ['"'] <+: s.toList ++ '"' :: c :: more ↔
        s.toList = key.name.toList :=
      append_quote_prefix (Identifier.not_mem key.identifier_name.2 hquote)
        (Identifier.not_mem hs hquote)
    rw [String.toList_inj] at hword
    rw [← hword]
    simp [quoted, List.cons_prefix_cons]
  have hclose : ¬ quoted key.name <+: '"' :: c :: more := by
    obtain ⟨k, ks, hk⟩ := List.exists_cons_of_ne_nil
      (fun h => key.identifier_name.1 (String.toList_eq_nil_iff.1 h))
    have hplain : isPlain k = true :=
      List.all_eq_true.1 key.identifier_name.2 k (by rw [hk]; exact List.mem_cons_self)
    simp [quoted, hk, List.cons_prefix_cons, isPlain_ne hplain hc]
  have hopen : quoted s ++ c :: more = '"' :: (s.toList ++ '"' :: c :: more) := by
    simp [quoted]
  rw [hopen] at hopens ⊢
  rw [findAfter]
  split
  · next hp =>
    obtain rfl : s = key.name := hopens.1 hp
    rw [if_pos rfl, ← hopen, List.drop_left]
  · next hp =>
    rw [if_neg (fun h => hp (hopens.2 h)), quoted, List.cons_append,
      findAfter_skip _ _ (Identifier.not_mem hs hquote), ← List.cons_append, findAfter,
      ← quoted, if_neg hclose]

/-- What follows the first quoted word that spells `key`, among the fields' keys and values. -/
def afterWord (key : DoneKey) : List DoneField → Option (List Char)
  | [] => none
  | f :: fs =>
    if f.key = key then some (':' :: quoted f.value ++ tailText fs)
    else if f.value = key.name then some (tailText fs)
    else afterWord key fs

theorem tailText_head (fs : List DoneField) :
    ∃ c more, tailText fs = c :: more ∧ isPlain c = false ∧ c ≠ '"' := by
  cases fs with
  | nil => exact ⟨_, _, rfl, by decide, by decide⟩
  | cons f fs => exact ⟨_, _, rfl, by decide, by decide⟩

section Fields

variable (key : DoneKey) {f : DoneField} {fs : List DoneField}

theorem findAfter_field (hf : Identifier f.value) :
    findAfter (quoted key.name) (f.text ++ tailText fs) =
      if f.key = key then some (':' :: quoted f.value ++ tailText fs)
      else if f.value = key.name then some (tailText fs)
      else findAfter (quoted key.name) (tailText fs) := by
  obtain ⟨c, more, htail, hc, -⟩ := tailText_head fs
  have hcolon : isPlain ':' = false := by decide
  have hno : '"' ∉ [':'] := by decide
  rw [DoneField.text, List.append_assoc, List.cons_append,
    findAfter_quoted key f.key.identifier_name.2 hcolon]
  by_cases hkey : f.key = key
  · rw [if_pos (congrArg DoneKey.name hkey), if_pos hkey]
  · rw [if_neg (fun h => hkey (DoneKey.name_inj.1 h)), if_neg hkey, ← List.singleton_append, quoted,
      List.cons_append, findAfter_skip _ _ hno, ← List.cons_append, ← quoted, htail,
      findAfter_quoted key hf.2 hc]

theorem findAfter_tailText (hfs : ∀ f ∈ fs, Identifier f.value) :
    findAfter (quoted key.name) (tailText fs) = afterWord key fs := by
  induction fs with
  | nil =>
    rw [tailText, quoted, List.cons_append, ← List.append_nil ['}'],
      findAfter_skip _ _ (by decide)]
    rfl
  | cons f fs ih =>
    have hno : '"' ∉ [','] := by decide
    rw [tailText, List.cons_append, ← List.singleton_append, quoted, List.cons_append,
      findAfter_skip _ _ hno, ← List.cons_append, ← quoted,
      findAfter_field key (hfs f List.mem_cons_self),
      ih (fun g hg => hfs g (List.mem_cons_of_mem _ hg)), afterWord]

theorem findAfter_objectText (hfs : ∀ f ∈ fs, Identifier f.value) :
    findAfter (quoted key.name) (objectText fs) = afterWord key fs := by
  cases fs with
  | nil =>
    rw [objectText, quoted, List.cons_append, ← List.append_nil ['{', '}'],
      findAfter_skip _ _ (by decide)]
    rfl
  | cons f fs =>
    have hno : '"' ∉ ['{'] := by decide
    rw [objectText, List.cons_append, ← List.singleton_append, quoted, List.cons_append,
      findAfter_skip _ _ hno, ← List.cons_append, ← quoted,
      findAfter_field key (hfs f List.mem_cons_self),
      findAfter_tailText key (fun g hg => hfs g (List.mem_cons_of_mem _ hg)), afterWord]

end Fields

/-! ### Reading the value after it -/

theorem readString_plain {s : String} (h : s.toList.all isPlain = true) (rest : List Char) :
    readString (s.toList ++ '"' :: rest) = s.toList := by
  generalize s.toList = cs at h
  induction cs with
  | nil => simp [readString]
  | cons c cs ih =>
    rw [List.all_cons, Bool.and_eq_true] at h
    have hquote : c ≠ '"' := isPlain_ne h.1 (by decide)
    have hslash : c ≠ '\\' := isPlain_ne h.1 (by decide)
    rw [List.cons_append, readString, ih h.2]
    · exact hquote
    · rintro _ _ rfl
      exact absurd rfl hslash

/-- The second half of `jsonStringField`. -/
theorem jsonStringField_of_findAfter {json : List Char} {key : DoneKey} {w rest : List Char}
    {s : String} (hfind : findAfter (quoted key.name) json = some (w ++ ':' :: quoted s ++ rest))
    (hw : ':' ∉ w) (hs : s.toList.all isPlain = true) :
    jsonStringField json key.name.toList = s.toList := by
  have hcolon : findAfter [':'] (w ++ ':' :: quoted s ++ rest) = some (quoted s ++ rest) := by
    rw [List.append_assoc, findAfter_skip _ _ hw, List.cons_append, findAfter,
      if_pos (by simp [List.cons_prefix_cons])]
    rfl
  have hfind' : findAfter ('"' :: key.name.toList ++ ['"']) json =
      some (w ++ ':' :: quoted s ++ rest) := hfind
  have hopen : quoted s ++ rest = '"' :: (s.toList ++ '"' :: rest) := by simp [quoted]
  simp only [jsonStringField, hfind', hcolon]
  rw [hopen, List.dropWhile_cons_of_neg (by decide)]
  exact readString_plain hs rest

/-- **The field search**: the value of the key's field, unless a value spells the key first. -/
theorem jsonStringField_text (key : DoneKey) {fs : List DoneField}
    (hfs : ∀ f ∈ fs, Identifier f.value) :
    jsonStringField (objectText fs) key.name.toList =
      ((misread key fs).getD (valueOf key fs)).toList := by
  have hfind := findAfter_objectText key hfs
  generalize objectText fs = json at hfind
  induction fs with
  | nil =>
    have hnone : findAfter ('"' :: key.name.toList ++ ['"']) json = none := hfind
    simp only [jsonStringField, hnone]
    rfl
  | cons f fs ih =>
    have hf := hfs f List.mem_cons_self
    have hrest : ∀ g ∈ fs, Identifier g.value := fun g hg => hfs g (List.mem_cons_of_mem _ hg)
    rw [afterWord] at hfind
    rw [misread, valueOf]
    split at hfind
    · next hkey =>
      rw [if_pos hkey, if_pos hkey]
      exact jsonStringField_of_findAfter (w := []) hfind (by simp) hf.2
    · next hkey =>
      rw [if_neg hkey, if_neg hkey]
      split at hfind
      · next hspelled =>
        rw [if_pos hspelled]
        cases fs with
        | nil =>
          have hend : findAfter ('"' :: key.name.toList ++ ['"']) json = some ['}'] := hfind
          simp only [jsonStringField, hend]
          rfl
        | cons g gs =>
          have hg := hrest g List.mem_cons_self
          have hsplit : tailText (g :: gs) =
              (',' :: quoted g.key.name) ++ ':' :: quoted g.value ++ tailText gs := by
            simp [tailText, DoneField.text]
          have hno : ':' ∉ ',' :: quoted g.key.name := by
            cases g.key <;> decide
          rw [hsplit] at hfind
          exact jsonStringField_of_findAfter hfind hno hg.2
      · next hspelled =>
        rw [if_neg hspelled]
        exact ih hrest hfind

/-! ## The round trip -/

theorem unquoteBody_wrapString (s : List Char) :
    unquoteBody (s.flatMap (fun c => if c = '"' ∨ c = '\\' then ['\\', c] else [c]) ++ ['"']) =
      s := by
  induction s with
  | nil => simp [unquoteBody]
  | cons c cs ih =>
    rw [List.flatMap_cons, List.append_assoc]
    by_cases hc : c = '"' ∨ c = '\\'
    · have hplain : c ≠ 'n' ∧ c ≠ 't' ∧ c ≠ 'r' := by
        rcases hc with rfl | rfl <;> decide
      rw [if_pos hc]
      simp only [List.cons_append, List.nil_append, unquoteBody, ih, hplain, if_false]
    · rw [if_neg hc]
      rw [not_or] at hc
      rw [List.singleton_append, unquoteBody, ih]
      · exact hc.1
      · rintro _ _ rfl
        exact absurd rfl hc.2

theorem jsonUnquote_wrapString (s : List Char) : jsonUnquote (wrapString s) = s := by
  rw [jsonUnquote, wrapString, List.cons_append, List.dropWhile_cons_of_neg (by decide)]
  exact unquoteBody_wrapString s

theorem jsonUnquote_objectText (fs : List DoneField) :
    jsonUnquote (objectText fs) = objectText fs := by
  cases fs <;> rfl

/-- A value that spells `verdict` ahead of the verdict is followed by a field. -/
theorem misread_ne_empty {key : DoneKey} {fs : List DoneField} {v : String}
    (hplain : ∀ f ∈ fs, Identifier f.value) (hmem : key ∈ fs.map DoneField.key)
    (h : misread key fs = some v) : v ≠ "" := by
  induction fs with
  | nil => cases h
  | cons f fs ih =>
    simp only [misread, Option.ite_none_left_eq_some] at h
    obtain ⟨hkey, h⟩ := h
    have hrest : key ∈ fs.map DoneField.key := by
      rw [List.map_cons, List.mem_cons] at hmem
      exact hmem.resolve_left (Ne.symm hkey)
    split at h
    · cases h
      cases fs with
      | nil => cases hrest
      | cons g gs => exact (hplain g (by simp)).1
    · exact ih (fun g hg => hplain g (List.mem_cons_of_mem _ hg)) hrest h

theorem valueOf_eq {fs : List DoneField} {f : DoneField} (hkeys : (fs.map DoneField.key).Nodup)
    (hf : f ∈ fs) : valueOf f.key fs = f.value := by
  induction fs with
  | nil => cases hf
  | cons g gs ih =>
    rw [List.map_cons, List.nodup_cons] at hkeys
    rcases List.mem_cons.1 hf with rfl | hmem
    · rw [valueOf, if_pos rfl]
    · have hne : g.key ≠ f.key := fun h => hkeys.1 (h ▸ List.mem_map_of_mem hmem)
      rw [valueOf, if_neg hne, ih hkeys.2 hmem]

namespace Donedata

variable (d : Donedata)

theorem valueOf_verdict : valueOf .verdict d.fields = verdictClassName d.cls :=
  valueOf_eq d.keys d.verdict_mem

/-- What the code makes of the object, whichever way it is stashed. -/
theorem verdictFromDonedata_eq {text : List Char} (h : jsonUnquote text = objectText d.fields) :
    verdictFromDonedata text =
      { cls := verdictClassFromName
          ((misread .verdict d.fields).getD (verdictClassName d.cls))
        reason := (misread .reason d.fields).getD (valueOf .reason d.fields)
        role := (misread .role d.fields).getD (valueOf .role d.fields)
        bound := (misread .bound d.fields).getD (valueOf .bound d.fields) } := by
  have hfield (key : DoneKey) := jsonStringField_text key d.plain
  have hverdict := hfield .verdict
  have hreason := hfield .reason
  have hrole := hfield .role
  have hbound := hfield .bound
  rw [d.valueOf_verdict] at hverdict
  simp only [DoneKey.name] at hverdict hreason hrole hbound
  have hne : ((misread .verdict d.fields).getD (verdictClassName d.cls)).toList ≠ [] := by
    rw [Ne, String.toList_eq_nil_iff]
    cases hm : misread .verdict d.fields with
    | none => exact (identifier_className d.cls).1
    | some v =>
      exact misread_ne_empty d.plain (List.mem_map_of_mem d.verdict_mem) hm
  simp only [verdictFromDonedata, h, hverdict, hreason, hrole, hbound, if_neg hne,
    String.ofList_toList]

theorem reads_iff {text : List Char} (h : jsonUnquote text = objectText d.fields) :
    verdictFromDonedata text = d.verdict ↔ Readable d := by
  rw [d.verdictFromDonedata_eq h, verdict, Verdict.mk.injEq]
  constructor
  · rintro ⟨hcls, hreason, hrole, hbound⟩
    refine ⟨?_, ?_⟩
    · intro key v hkey hv
      cases key with
      | verdict => exact absurd rfl hkey
      | reason => rwa [hv] at hreason
      | role => rwa [hv] at hrole
      | bound => rwa [hv] at hbound
    · intro v hv
      rwa [hv] at hcls
  · rintro ⟨hfields, hcls⟩
    have hfield (key : DoneKey) (hkey : key ≠ .verdict) :
        (misread key d.fields).getD (valueOf key d.fields) = valueOf key d.fields := by
      cases hm : misread key d.fields with
      | none => rfl
      | some v => exact hfields key v hkey hm
    refine ⟨?_, hfield _ (by decide), hfield _ (by decide), hfield _ (by decide)⟩
    cases hm : misread .verdict d.fields with
    | none => exact verdictClassFromName_name d.cls
    | some v => exact hcls v hm

/-- **Donedata round trip**: an object comes back as it was written, bare and wrapped, exactly when no
value that spells a key ahead of the key's field changes what is read. -/
theorem donedata_round_trip_iff :
    (verdictFromDonedata (objectText d.fields) = d.verdict ∧
      verdictFromDonedata (wrapString (objectText d.fields)) = d.verdict) ↔ Readable d := by
  rw [d.reads_iff (jsonUnquote_objectText _), d.reads_iff (jsonUnquote_wrapString _), and_self_iff]

end Donedata

/-- A fail for the reason `role` that declares a bound and no role: the bound is read as the role. -/
theorem donedata_reason_taken_for_role :
    let d : Donedata :=
      { cls := .fail
        fields := [⟨.verdict, "fail"⟩, ⟨.reason, "role"⟩, ⟨.bound, "ParamListenTime"⟩]
        keys := by decide
        verdict_mem := by decide
        plain := by decide }
    d.verdict = { cls := .fail, reason := "role", bound := "ParamListenTime" } ∧
      verdictFromDonedata (objectText d.fields) =
        { cls := .fail, reason := "role", role := "ParamListenTime", bound := "ParamListenTime" } ∧
      ¬ (verdictFromDonedata (objectText d.fields) = d.verdict ∧
        verdictFromDonedata (wrapString (objectText d.fields)) = d.verdict) := by
  decide

end Tc8Harness.Sce
