import Tc8Harness.Inventory.JsonScan

/-!
# The spec inventory

`sce_integration/spec_inventory.cpp` and the id shape of `sce_integration/case_id_shape.h`: the
primary inventory, the extra inventories merged into it and the overrides applied to the result. The
file system is a function from paths to texts; a path that cannot be opened has none. A refusal is
the text the source puts into `*err`.
-/

namespace Tc8Harness.Sce

/-! ## Case ids -/

def kKnownVariantTags : List (List Char) :=
  ["_NEG", "_NEG2", "_NEG3", "_NEG4", "_NEG5", "_NEG6", "_NEG7", "_NEG8",
    "_IT1", "_IT2", "_IT3", "_IT4", "_IT5", "_IT6", "_IT7", "_IT8", "_IT9"].map String.toList

def stripVariantTag (id : List Char) : List Char :=
  match kKnownVariantTags.find? fun tag => tag.length < id.length ∧ tag.isSuffixOf id with
  | some tag => id.take (id.length - tag.length)
  | none => id

/-- What stands before the last underscore of the id without its variant tag. -/
def deriveCategory (id : List Char) : List Char :=
  let core := stripVariantTag id
  if '_' ∈ core then ((core.reverse.dropWhile (· ≠ '_')).tail).reverse else core

def kPlatformKnownFailSuffix : List Char := "_PLATFORM_KNOWN_FAIL".toList

/-- `SpecInventory::canonicalise`. -/
def canonicalise (id : List Char) : List Char :=
  let id := toUpperText id
  if kPlatformKnownFailSuffix.isSuffixOf id then
    id.take (id.length - kPlatformKnownFailSuffix.length)
  else stripVariantTag id

/-- `SpecInventory::key`. -/
def inventoryKey (suite id : List Char) : List Char :=
  canonicalSuite suite ++ ':' :: canonicalise id

/-! ## Cases -/

/-- The fields of `SpecCase` that an overrides entry sets, all of them at once. -/
structure CaseAxes where
  expected : Bool := true
  deferReason : List Char := []
  platformKnownFail : Bool := false
  platformKnownFailRef : List Char := []
  platformKnownFailVerdict : List Char := []
  timingSerial : Bool := false
  timingSerialRef : List Char := []
  requiresSecondaryIface : Bool := false
  expectOverrides : List (List Char) := []
  expectOverridesRef : List Char := []
  negWrongToken : List Char := []
  negExpectFail : List Char := []
  negExpectOverrides : List (List Char) := []
  negRowRef : List Char := []
  negExtraWrongTokens : List (List Char) := []
  negExtraExpectFails : List (List Char) := []
  vsomeipCfg : List Char := []
  vsomeipEnv : List (List Char) := []
  vsomeipVariantRef : List Char := []
  vsomeipDeclared : Bool := false
  deriving DecidableEq, Repr

structure SpecCase where
  suite : List Char
  id : List Char
  category : List Char
  section_ : List Char
  split : List Char
  line : Int
  axes : CaseAxes := {}
  deriving DecidableEq, Repr

def SpecCase.key (sc : SpecCase) : List Char := inventoryKey sc.suite sc.id

/-! ## One inventory file -/

/-- The suite a file belongs to: the one its root names, or the default suite. An empty `mustBe`
allows any. -/
def resolveFileSuite (text : List Char) (path : String) (mustBe : List Char) :
    Except String (List Char) :=
  match findRootStringField text "suite" with
  | none => .ok kDefaultSuite
  | some declared =>
    if isWellFormedSuite declared = false then
      .error ("inventory " ++ path ++ " declares suite '" ++ String.ofList declared ++
        "', which is not a valid suite name ([A-Za-z_][A-Za-z0-9_]*)")
    else
      let suite := canonicalSuite declared
      if mustBe ≠ [] ∧ suite ≠ mustBe then
        .error ("primary inventory " ++ path ++ " declares suite '" ++ String.ofList declared ++
          "', but the primary inventory is the in-tree suite '" ++ String.ofList mustBe ++
          "'s catalog; pass another suite's inventory with --inventory-extra")
      else .ok suite

/-- One row of the `cases` array; a row without an id is passed over. -/
def parseRow (suite block : List Char) : Option SpecCase :=
  let id := findStringField block "case_id"
  if id = [] then none
  else
    some
      { suite
        id
        section_ := findStringField block "section"
        split := findStringField block "split"
        line := findIntField block "line" 0
        category := deriveCategory id }

def parseInventoryCases (text : List Char) (path : String) (suite : List Char) :
    Except String (List SpecCase) :=
  let casesBody := extractArrayBody text "cases"
  if casesBody = [] then .error ("inventory " ++ path ++ " missing 'cases' array")
  else .ok ((splitJsonObjectArray casesBody).filterMap (parseRow suite))

/-! ## Overrides -/

def readAxes (body : List Char) : CaseAxes where
  expected := findBoolField body "expected" true
  deferReason := findStringField body "reason"
  platformKnownFail := findBoolField body "platform_known_fail" false
  platformKnownFailRef := findStringField body "platform_known_fail_ref"
  platformKnownFailVerdict := findStringField body "platform_known_fail_verdict"
  timingSerial := findBoolField body "timing_serial" false
  timingSerialRef := findStringField body "timing_serial_ref"
  requiresSecondaryIface := findBoolField body "requires_secondary_iface" false
  expectOverrides := findStringArrayField body "expect_overrides"
  expectOverridesRef := findStringField body "expect_overrides_ref"
  negWrongToken := findStringField body "neg_wrong_token"
  negExpectFail := findStringField body "neg_expect_fail"
  negExpectOverrides := findStringArrayField body "neg_expect_overrides"
  negRowRef := findStringField body "neg_row_ref"
  negExtraWrongTokens := findStringArrayField body "neg_extra_wrong_tokens"
  negExtraExpectFails := findStringArrayField body "neg_extra_expect_fails"
  vsomeipCfg := findStringField body "vsomeip_cfg"
  vsomeipEnv := findStringArrayField body "vsomeip_env"
  vsomeipVariantRef := findStringField body "vsomeip_variant_ref"
  vsomeipDeclared := hasField body "vsomeip_cfg" || hasField body "vsomeip_env"

/-- The key of a `key=value` token: all of it when it has no `=`. -/
def tokenKey (token : List Char) : List Char := token.takeWhile (· ≠ '=')

def refuseWhen (bad : Prop) [Decidable bad] (text : String) : Except String Unit :=
  if bad then .error text else .ok ()

/-- The first element the refusal is about decides its text. -/
def refuseAny {α : Type} (xs : List α) (bad : α → Bool) (text : α → String) : Except String Unit :=
  match xs.find? bad with
  | some x => .error (text x)
  | none => .ok ()

/-- No two rows flip the same key: `flipped` holds the keys of the rows before. -/
def refuseRepeatedFlips (id : String) (flipped : List (List Char)) :
    List (List Char) → Except String Unit
  | [] => .ok ()
  | tok :: toks =>
    let key := tokenKey tok
    if key ≠ [] ∧ key ∈ flipped then
      .error ("overrides: " ++ id ++ " negative rows flip '" ++ String.ofList key ++
        "' more than once; each row must fault a different expectation")
    else refuseRepeatedFlips id (flipped ++ [key]) toks

/-- The checks `load` makes on an entry, in the source's order. -/
def checkAxes (id : String) (a : CaseAxes) : Except String Unit := do
  refuseWhen (¬ (a.negWrongToken = [] ↔ a.negExpectFail = []))
    ("overrides: " ++ id ++ " has only half a negative row (neg_wrong_token and " ++
      "neg_expect_fail must be set together)")
  refuseWhen (a.platformKnownFailVerdict ≠ [] ∧ a.platformKnownFail = false)
    ("overrides: " ++ id ++ " sets platform_known_fail_verdict without platform_known_fail:true")
  refuseWhen (a.platformKnownFailVerdict ≠ [] ∧ ':' ∉ a.platformKnownFailVerdict)
    ("overrides: " ++ id ++ " platform_known_fail_verdict '" ++
      String.ofList a.platformKnownFailVerdict ++ "' is not a class:reason token")
  refuseWhen (a.negExpectOverrides ≠ [] ∧ a.negWrongToken = [])
    ("overrides: " ++ id ++ " sets neg_expect_overrides but has no negative row " ++
      "(neg_wrong_token); it could never be applied")
  refuseAny (if a.negWrongToken = [] then [] else a.negExpectOverrides)
    (fun tok => tokenKey tok == tokenKey a.negWrongToken)
    (fun tok => "overrides: " ++ id ++ " neg_expect_overrides token '" ++ String.ofList tok ++
      "' collides with neg_wrong_token key '" ++ String.ofList (tokenKey a.negWrongToken) ++
      "'; the override is applied last and would overwrite the deliberate mistake")
  refuseWhen (a.negExtraWrongTokens.length ≠ a.negExtraExpectFails.length)
    ("overrides: " ++ id ++ " has " ++ toString a.negExtraWrongTokens.length ++
      " neg_extra_wrong_tokens but " ++ toString a.negExtraExpectFails.length ++
      " neg_extra_expect_fails; they are parallel and must be the same length")
  refuseWhen (a.negExtraWrongTokens ≠ [] ∧ a.negWrongToken = [])
    ("overrides: " ++ id ++ " sets neg_extra_wrong_tokens but has no primary negative row " ++
      "(neg_wrong_token); they could never be run")
  refuseAny a.negExtraExpectFails (fun verdict => decide (':' ∉ verdict))
    (fun verdict => "overrides: " ++ id ++ " neg_extra_expect_fails entry '" ++
      String.ofList verdict ++ "' is not a class:reason token")
  refuseRepeatedFlips id [tokenKey a.negWrongToken] a.negExtraWrongTokens
  refuseWhen (a.vsomeipCfg ≠ [] ∧
      ('/' ∈ a.vsomeipCfg ∨ a.vsomeipCfg.length < 6 ∨
        ".json".toList.isSuffixOf a.vsomeipCfg = false))
    ("overrides: " ++ id ++ " vsomeip_cfg '" ++ String.ofList a.vsomeipCfg ++
      "' must be a bare *.json basename (sibling of the base cfg)")
  refuseAny a.vsomeipEnv (fun e => decide ('=' ∉ e))
    (fun e => "overrides: " ++ id ++ " vsomeip_env token '" ++ String.ofList e ++
      "' is not KEY=VALUE")

/-- An entry of the overrides object: its key as written and its block. -/
abbrev OverrideEntry := List Char × List Char

/-- The case an entry addresses: a bare key means the default suite's. -/
def OverrideEntry.target (entry : OverrideEntry) : List Char :=
  let qid := splitQualifiedCaseId entry.1
  inventoryKey (if qid.suite = [] then kDefaultSuite else qid.suite) qid.id

def checkEntry (entry : OverrideEntry) : Except String Unit := do
  let qid := splitQualifiedCaseId entry.1
  refuseWhen (qid.suite ≠ [] ∧ isWellFormedSuite qid.suite = false)
    ("overrides: key '" ++ String.ofList entry.1 ++ "' qualifies an invalid suite name '" ++
      String.ofList qid.suite ++ "'")
  checkAxes (String.ofList entry.1) (readAxes entry.2)

/-- The entry's axes replace those of the first case it addresses. -/
def assignAxes (entry : OverrideEntry) : List SpecCase → List SpecCase
  | [] => []
  | sc :: rest =>
    if sc.key = entry.target then { sc with axes := readAxes entry.2 } :: rest
    else sc :: assignAxes entry rest

def applyOverrides (cases : List SpecCase) : List OverrideEntry → Except String (List SpecCase)
  | [] => .ok cases
  | entry :: rest => do
    checkEntry entry
    applyOverrides (assignAxes entry cases) rest

/-! ## Loading -/

/-- What the merge of the extra inventories has so far. -/
structure Merged where
  cases : List SpecCase
  suites : List (List Char)
  /-- The keys met so far. -/
  seen : List (List Char)

def collisionText (path : String) (sc : SpecCase) : String :=
  "extra spec inventory " ++ path ++ " case '" ++ String.ofList (qualifiedCaseId sc.suite sc.id) ++
    "' collides with an already-loaded case of the same suite"

/-- The rows of one extra file, each refused when its key was met before. -/
def mergeRows (path : String) (m : Merged) : List SpecCase → Except String Merged
  | [] => .ok m
  | sc :: rest =>
    if sc.key ∈ m.seen then .error (collisionText path sc)
    else mergeRows path { m with cases := m.cases ++ [sc], seen := sc.key :: m.seen } rest

section Load

variable (fs : String → Option (List Char))

def slurp (path : String) (failure : String) : Except String (List Char) :=
  match fs path with
  | some text => .ok text
  | none => .error (failure ++ path)

def mergeExtras (m : Merged) : List String → Except String Merged
  | [] => .ok m
  | path :: rest => do
    let text ← slurp fs path "cannot open extra spec inventory: "
    let suite ← resolveFileSuite text path []
    let rows ← parseInventoryCases text path suite
    let m ← mergeRows path m rows
    let suites := if canonicalSuite suite ∈ m.suites then m.suites else m.suites ++ [suite]
    mergeExtras { m with suites } rest

/-- The entries of the overrides file; an empty path means there is none. -/
def readOverrides (overridesPath : String) : Except String (List OverrideEntry) :=
  if overridesPath = "" then .ok []
  else do
    let text ← slurp fs overridesPath "cannot open inventory overrides: "
    .ok (splitJsonObjectMap text "overrides")

/-- `std::unordered_map::emplace`: a key that is present stays as it is. -/
def emplace (index : List (List Char × Nat)) (key : List Char) (i : Nat) :
    List (List Char × Nat) :=
  if (index.lookup key).isSome then index else index ++ [(key, i)]

/-- The index of the cases from position `i` on. -/
def indexFrom (index : List (List Char × Nat)) (i : Nat) :
    List SpecCase → List (List Char × Nat)
  | [] => index
  | sc :: rest => indexFrom (emplace index sc.key i) (i + 1) rest

structure SpecInventory where
  cases : List SpecCase
  suites : List (List Char)
  byKey : List (List Char × Nat)
  deriving DecidableEq, Repr

/-- The rows of the primary inventory, which is the default suite's catalog. -/
def readPrimary (inventoryPath : String) : Except String (List Char × List SpecCase) := do
  let text ← slurp fs inventoryPath "cannot open spec inventory: "
  let suite ← resolveFileSuite text inventoryPath kDefaultSuite
  let cases ← parseInventoryCases text inventoryPath suite
  .ok (suite, cases)

def SpecInventory.load (inventoryPath : String) (extraInventoryPaths : List String)
    (overridesPath : String) : Except String SpecInventory := do
  let (suite, cases) ← readPrimary fs inventoryPath
  let m ← mergeExtras fs ⟨cases, [suite], cases.map SpecCase.key⟩ extraInventoryPaths
  let entries ← readOverrides fs overridesPath
  let cases ← applyOverrides m.cases entries
  .ok ⟨cases, m.suites, indexFrom [] 0 cases⟩

end Load

def SpecInventory.find (inv : SpecInventory) (suite id : List Char) : Option SpecCase :=
  match inv.byKey.lookup (inventoryKey suite id) with
  | some i => inv.cases[i]?
  | none => none

def SpecInventory.hasSuite (inv : SpecInventory) (suite : List Char) : Bool :=
  inv.suites.contains (canonicalSuite suite)

end Tc8Harness.Sce
