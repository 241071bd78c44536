import Tc8Harness.Inventory.SpecInventory

/-!
# Inventory identity

A case of the inventory is its suite and its canonical id. Extra files are checked against every key
met before; the rows of the primary file are not checked against each other, and neither are the
entries of the overrides file. `identity_iff` says for which files an accepted load keeps identities
apart: those whose primary rows have different canonical ids and whose override entries, where two
name one loaded case, say the same.
-/

namespace Tc8Harness.Sce

variable {fs : String → Option (List Char)}

/-! ## What the loaded inventory promises -/

/-- The identity of a case. -/
def SpecCase.identity (sc : SpecCase) : List Char × List Char :=
  (canonicalSuite sc.suite, canonicalise sc.id)

/-- What a load promises of its result, for the entries of the overrides file. -/
structure Identity (entries : List OverrideEntry) (inv : SpecInventory) : Prop where
  /-- No two loaded cases have one suite and canonical id. -/
  distinct : inv.cases.Pairwise fun a b => a.identity ≠ b.identity
  /-- The lookup returns the case that has the key. -/
  find_iff : ∀ suite id sc,
    inv.find suite id = some sc ↔ sc ∈ inv.cases ∧ sc.key = inventoryKey suite id
  /-- An entry is in effect on the case it names, with all its axes. -/
  inEffect : ∀ entry ∈ entries, ∀ sc ∈ inv.cases,
    sc.key = entry.target → sc.axes = readAxes entry.2
  /-- A case has its axes from no entry but one that names it. -/
  onNoOther : ∀ sc ∈ inv.cases,
    sc.axes = {} ∨ ∃ entry ∈ entries, sc.key = entry.target ∧ sc.axes = readAxes entry.2

/-! ## What is written in the files -/

/-- The rows of one inventory file; none when it is refused. -/
def fileRows (fs : String → Option (List Char)) (mustBe : List Char) (path : String) :
    List SpecCase :=
  match fs path with
  | none => []
  | some text =>
    match resolveFileSuite text path mustBe with
    | .error _ => []
    | .ok suite =>
      match parseInventoryCases text path suite with
      | .error _ => []
      | .ok rows => rows

/-- The keys of all rows of the primary and the extra files. -/
def writtenKeys (fs : String → Option (List Char)) (inventoryPath : String)
    (extraInventoryPaths : List String) : List (List Char) :=
  (fileRows fs kDefaultSuite inventoryPath ++ extraInventoryPaths.flatMap (fileRows fs [])).map
    SpecCase.key

def overrideEntries (fs : String → Option (List Char)) (overridesPath : String) :
    List OverrideEntry :=
  match readOverrides fs overridesPath with
  | .ok entries => entries
  | .error _ => []

/-- The files say one thing of each case. -/
structure Unambiguous (fs : String → Option (List Char)) (inventoryPath : String)
    (extraInventoryPaths : List String) (overridesPath : String) : Prop where
  /-- The rows of the primary file have different canonical ids. -/
  primary : ((fileRows fs kDefaultSuite inventoryPath).map fun sc => canonicalise sc.id).Nodup
  /-- Entries that name one row of the files say the same. -/
  overrides : ∀ entry ∈ overrideEntries fs overridesPath,
    ∀ entry' ∈ overrideEntries fs overridesPath,
      entry.target = entry'.target → entry.target ∈ writtenKeys fs inventoryPath extraInventoryPaths →
        readAxes entry.2 = readAxes entry'.2

/-! ## Keys -/

theorem toLower_eq_colon_iff (c : Char) : c.toLower = ':' ↔ c = ':' := by
  rw [← toUpper_eq_colon_iff c.toLower, Char.toUpper_toLower_eq_toUpper, toUpper_eq_colon_iff]

theorem not_mem_canonicalSuite {suite : List Char} (h : ':' ∉ suite) :
    ':' ∉ canonicalSuite suite := by
  simpa [canonicalSuite, toLower_eq_colon_iff] using h

theorem not_mem_of_isWellFormedSuite {suite : List Char} (h : isWellFormedSuite suite = true) :
    ':' ∉ suite := by
  cases suite with
  | nil => simp
  | cons c cs =>
    simp only [isWellFormedSuite, Bool.and_eq_true, List.all_eq_true] at h
    intro hmem
    rcases List.mem_cons.1 hmem with rfl | hmem
    · exact absurd h.1 (by decide)
    · exact absurd (h.2 _ hmem) (by decide)

/-- Where no suite holds a colon, the joined key is the identity. -/
theorem key_eq_iff {a b : SpecCase} (ha : ':' ∉ a.suite) (hb : ':' ∉ b.suite) :
    a.key = b.key ↔ a.identity = b.identity := by
  unfold SpecCase.key SpecCase.identity inventoryKey
  constructor
  · intro h
    have hsplit := congrArg splitQualifiedCaseId h
    rw [splitQualifiedCaseId_append (not_mem_canonicalSuite ha),
      splitQualifiedCaseId_append (not_mem_canonicalSuite hb), QualifiedCaseId.mk.injEq] at hsplit
    exact Prod.ext hsplit.1 hsplit.2
  · intro h
    rw [Prod.mk.injEq] at h
    rw [h.1, h.2]

/-! ## Rows -/

theorem except_bind_ok {ε α β : Type} {x : Except ε α} {f : α → Except ε β} {b : β} :
    (x >>= f) = .ok b ↔ ∃ a, x = .ok a ∧ f a = .ok b := by
  cases x with
  | error e => simp [bind, Except.bind]
  | ok a => simp [bind, Except.bind]

theorem slurp_ok {path failure : String} {text : List Char} (h : slurp fs path failure = .ok text) :
    fs path = some text := by
  unfold slurp at h
  split at h
  · rename_i text' htext
    rw [htext, Except.ok.inj h]
  · cases h

theorem resolveFileSuite_ok {text : List Char} {path : String} {mustBe suite : List Char}
    (h : resolveFileSuite text path mustBe = .ok suite) :
    ':' ∉ suite ∧ (mustBe ≠ [] → mustBe = kDefaultSuite → suite = kDefaultSuite) := by
  unfold resolveFileSuite at h
  cases hdeclared : findRootStringField text "suite" with
  | none =>
    rw [hdeclared] at h
    cases h
    exact ⟨by decide, fun _ _ => rfl⟩
  | some declared =>
    simp only [hdeclared] at h
    split at h
    · cases h
    · rename_i hwell
      split at h
      · cases h
      · rename_i hmust
        cases h
        refine ⟨not_mem_canonicalSuite (not_mem_of_isWellFormedSuite (by simpa using hwell)), ?_⟩
        intro hne heq
        by_contra hsuite
        exact hmust ⟨hne, heq ▸ hsuite⟩

theorem resolveFileSuite_canonical {text : List Char} {path : String} {mustBe suite : List Char}
    (h : resolveFileSuite text path mustBe = .ok suite) : canonicalSuite suite = suite := by
  unfold resolveFileSuite at h
  cases hdeclared : findRootStringField text "suite" with
  | none =>
    rw [hdeclared] at h
    cases h
    decide
  | some declared =>
    simp only [hdeclared] at h
    split at h
    · cases h
    · split at h
      · cases h
      · cases h
        exact (List.map_map ..).trans (List.map_congr_left fun c _ =>
          Char.toLower_toLower_eq_toLower c)

/-- Every row of a file is attributed to the file's suite and has the default axes. -/
theorem parseInventoryCases_ok {text : List Char} {path : String} {suite : List Char}
    {rows : List SpecCase} (h : parseInventoryCases text path suite = .ok rows) :
    ∀ sc ∈ rows, sc.suite = suite ∧ sc.axes = {} := by
  unfold parseInventoryCases at h
  dsimp only at h
  split at h
  · cases h
  · cases h
    intro sc hsc
    obtain ⟨block, -, hrow⟩ := List.mem_filterMap.1 hsc
    unfold parseRow at hrow
    dsimp only at hrow
    split at hrow
    · cases hrow
    · cases hrow
      exact ⟨rfl, rfl⟩

theorem fileRows_eq {path failure : String} {mustBe text suite : List Char} {rows : List SpecCase}
    (htext : slurp fs path failure = .ok text)
    (hsuite : resolveFileSuite text path mustBe = .ok suite)
    (hrows : parseInventoryCases text path suite = .ok rows) : fileRows fs mustBe path = rows := by
  simp only [fileRows, slurp_ok htext, hsuite, hrows]

/-- What every row of a file satisfies. -/
theorem fileRows_spec {mustBe : List Char} {path : String} {sc : SpecCase}
    (hsc : sc ∈ fileRows fs mustBe path) :
    ':' ∉ sc.suite ∧ sc.axes = {} ∧ (mustBe = kDefaultSuite → sc.suite = kDefaultSuite) := by
  unfold fileRows at hsc
  split at hsc
  · cases hsc
  · split at hsc
    · cases hsc
    · rename_i suite hsuite
      split at hsc
      · cases hsc
      · rename_i rows hrows
        obtain ⟨hsame, haxes⟩ := parseInventoryCases_ok hrows sc hsc
        obtain ⟨hcolon, hdefault⟩ := resolveFileSuite_ok hsuite
        rw [hsame]
        refine ⟨hcolon, haxes, fun heq => hdefault ?_ heq⟩
        rw [heq]
        decide

/-! ## The merge -/

/-- The keys met so far are the keys of the cases. -/
def Merged.Tracks (m : Merged) : Prop := ∀ k, k ∈ m.seen ↔ k ∈ m.cases.map SpecCase.key

/-- One row of an extra file: it is appended, and repeats no key. -/
theorem mergeRows_ok {path : String} {m m' : Merged} {rows : List SpecCase}
    (h : mergeRows path m rows = .ok m') (hm : m.Tracks) :
    m'.cases = m.cases ++ rows ∧ m'.Tracks ∧
      ((m'.cases.map SpecCase.key).Nodup ↔ (m.cases.map SpecCase.key).Nodup) := by
  induction rows generalizing m with
  | nil =>
    cases h
    simp [hm]
  | cons sc rest ih =>
    unfold mergeRows at h
    split at h
    · cases h
    · rename_i hfresh
      have htracks : Merged.Tracks
          { m with cases := m.cases ++ [sc], seen := sc.key :: m.seen } := by
        intro k
        simp [hm k, or_comm, eq_comm]
      obtain ⟨hcases, htracks', hnodup⟩ := ih h htracks
      refine ⟨by rw [hcases]; simp, htracks', hnodup.trans ?_⟩
      rw [hm] at hfresh
      rw [List.map_append, List.nodup_append]
      constructor
      · exact fun h => h.1
      · intro hbefore
        refine ⟨hbefore, List.nodup_singleton _, fun k hk k' hk' heq => hfresh ?_⟩
        rw [← List.mem_singleton.1 hk', ← heq]
        exact hk

theorem mergeExtras_ok {m m' : Merged} {paths : List String}
    (h : mergeExtras fs m paths = .ok m') (hm : m.Tracks) :
    m'.cases = m.cases ++ paths.flatMap (fileRows fs []) ∧
      ((m'.cases.map SpecCase.key).Nodup ↔ (m.cases.map SpecCase.key).Nodup) := by
  induction paths generalizing m with
  | nil =>
    cases h
    simp
  | cons path rest ih =>
    unfold mergeExtras at h
    obtain ⟨text, htext, h⟩ := except_bind_ok.1 h
    obtain ⟨suite, hsuite, h⟩ := except_bind_ok.1 h
    obtain ⟨rows, hrows, h⟩ := except_bind_ok.1 h
    obtain ⟨mid, hmid, h⟩ := except_bind_ok.1 h
    obtain ⟨hcases, htracks, hnodup⟩ := mergeRows_ok hmid hm
    obtain ⟨hcases', hnodup'⟩ := ih h htracks
    refine ⟨?_, hnodup'.trans hnodup⟩
    rw [hcases', hcases, List.flatMap_cons, fileRows_eq htext hsuite hrows, List.append_assoc]

/-! ## Overrides -/

/-- The axes a case of this key has after the entries: those of the last entry that names it. -/
def axesAfter (key : List Char) (before : CaseAxes) : List OverrideEntry → CaseAxes
  | [] => before
  | entry :: rest =>
    axesAfter key (if key = entry.target then readAxes entry.2 else before) rest

/-- Where keys are distinct, the first case an entry addresses is the only one. -/
theorem assignAxes_eq_map {cases : List SpecCase} (h : (cases.map SpecCase.key).Nodup)
    (entry : OverrideEntry) :
    assignAxes entry cases = cases.map fun sc =>
      { sc with axes := if sc.key = entry.target then readAxes entry.2 else sc.axes } := by
  induction cases with
  | nil => rfl
  | cons sc rest ih =>
    rw [List.map_cons, List.nodup_cons] at h
    unfold assignAxes
    rw [List.map_cons]
    by_cases hkey : sc.key = entry.target
    · rw [if_pos hkey, if_pos hkey]
      congr 1
      conv_lhs => rw [← List.map_id rest]
      refine List.map_congr_left fun other hother => ?_
      rw [if_neg fun heq => h.1 (List.mem_map.2 ⟨other, hother, heq.trans hkey.symm⟩)]
      rfl
    · rw [if_neg hkey, if_neg hkey, ih h.2]

theorem assignAxes_keys (entry : OverrideEntry) (cases : List SpecCase) :
    (assignAxes entry cases).map SpecCase.identity = cases.map SpecCase.identity := by
  induction cases with
  | nil => rfl
  | cons sc rest ih =>
    unfold assignAxes
    split
    · rfl
    · rw [List.map_cons, List.map_cons, ih]

theorem applyOverrides_identities {cases cases' : List SpecCase} {entries : List OverrideEntry}
    (h : applyOverrides cases entries = .ok cases') :
    cases'.map SpecCase.identity = cases.map SpecCase.identity := by
  induction entries generalizing cases with
  | nil =>
    cases h
    rfl
  | cons entry rest ih =>
    unfold applyOverrides at h
    obtain ⟨-, -, h⟩ := except_bind_ok.1 h
    rw [ih h, assignAxes_keys]

theorem applyOverrides_eq_map {cases cases' : List SpecCase} {entries : List OverrideEntry}
    (h : applyOverrides cases entries = .ok cases') (hnodup : (cases.map SpecCase.key).Nodup) :
    cases' = cases.map fun sc => { sc with axes := axesAfter sc.key sc.axes entries } := by
  induction entries generalizing cases with
  | nil =>
    cases h
    exact (List.map_id _).symm
  | cons entry rest ih =>
    unfold applyOverrides at h
    obtain ⟨-, -, h⟩ := except_bind_ok.1 h
    have hassign := assignAxes_eq_map hnodup entry
    have hkeys : (assignAxes entry cases).map SpecCase.key = cases.map SpecCase.key := by
      rw [hassign, List.map_map]
      rfl
    rw [ih h (hkeys ▸ hnodup), hassign, List.map_map]
    rfl

theorem axesAfter_cases (key : List Char) (before : CaseAxes) (entries : List OverrideEntry) :
    axesAfter key before entries = before ∨
      ∃ entry ∈ entries, key = entry.target ∧ axesAfter key before entries = readAxes entry.2 := by
  induction entries generalizing before with
  | nil => exact .inl rfl
  | cons entry rest ih =>
    unfold axesAfter
    rcases ih (if key = entry.target then readAxes entry.2 else before) with h | ⟨e, he, hkey, h⟩
    · by_cases hkey : key = entry.target
      · rw [if_pos hkey] at h ⊢
        exact .inr ⟨entry, List.mem_cons_self, hkey, h⟩
      · rw [if_neg hkey] at h ⊢
        exact .inl h
    · exact .inr ⟨e, List.mem_cons_of_mem _ he, hkey, h⟩

/-- An entry that no other contradicts is in effect at the end. -/
theorem axesAfter_of_agree {key : List Char} {entries : List OverrideEntry} {entry : OverrideEntry}
    (hentry : entry ∈ entries) (hkey : key = entry.target)
    (hagree : ∀ e ∈ entries, key = e.target → readAxes e.2 = readAxes entry.2)
    (before : CaseAxes) : axesAfter key before entries = readAxes entry.2 := by
  induction entries generalizing before with
  | nil => cases hentry
  | cons first rest ih =>
    unfold axesAfter
    by_cases hrest : entry ∈ rest
    · exact ih hrest (fun e he => hagree e (List.mem_cons_of_mem _ he)) _
    · obtain rfl : entry = first := (List.mem_cons.1 hentry).resolve_right hrest
      rw [if_pos hkey]
      rcases axesAfter_cases key (readAxes entry.2) rest with h | ⟨e, he, hetarget, h⟩
      · exact h
      · rw [h, hagree e (List.mem_cons_of_mem _ he) hetarget]

/-! ## The index -/

theorem emplace_lookup (index : List (List Char × Nat)) (key k : List Char) (i : Nat) :
    (emplace index key i).lookup k =
      (index.lookup k).or (if k = key then some i else none) := by
  unfold emplace
  by_cases hk : k = key
  · subst hk
    cases hlookup : index.lookup k with
    | some j => simp [hlookup]
    | none => simp [List.lookup_append, hlookup, List.lookup]
  · rw [if_neg hk, Option.or_none]
    split
    · rfl
    · simp [List.lookup_append, List.lookup, beq_eq_false_iff_ne.2 hk]

theorem indexFrom_lookup (index : List (List Char × Nat)) (i : Nat) (cases : List SpecCase)
    (k : List Char) :
    (indexFrom index i cases).lookup k =
      (index.lookup k).or ((cases.findIdx? fun sc => sc.key = k).map (· + i)) := by
  induction cases generalizing index i with
  | nil => simp [indexFrom]
  | cons sc rest ih =>
    unfold indexFrom
    rw [ih, emplace_lookup, Option.or_assoc, List.findIdx?_cons]
    by_cases hk : sc.key = k
    · simp [hk]
    · simp [hk, Ne.symm hk, Option.map_map, Function.comp_def, Nat.add_comm, Nat.add_left_comm]

theorem find_eq_find? {inv : SpecInventory} (h : inv.byKey = indexFrom [] 0 inv.cases)
    (suite id : List Char) :
    inv.find suite id = inv.cases.find? fun sc => sc.key = inventoryKey suite id := by
  unfold SpecInventory.find
  rw [h, indexFrom_lookup]
  cases hidx : inv.cases.findIdx? fun sc => decide (sc.key = inventoryKey suite id) with
  | none =>
    rw [List.findIdx?_eq_none_iff] at hidx
    exact (List.find?_eq_none.2 fun sc hsc => by simpa using hidx sc hsc).symm
  | some i =>
    obtain ⟨hi, hkey, hbefore⟩ := List.findIdx?_eq_some_iff_getElem.1 hidx
    have hfind : inv.cases.find? (fun sc => sc.key = inventoryKey suite id) =
        some inv.cases[i] := by
      rw [List.find?_eq_some_iff_getElem]
      exact ⟨hkey, i, hi, rfl, fun j hj => by simpa using hbefore j hj⟩
    rw [hfind]
    simp [hi]

/-- Where keys are distinct, the lookup returns the case that has the key. -/
theorem find_eq_some_iff_of_nodup {inv : SpecInventory}
    (hindex : inv.byKey = indexFrom [] 0 inv.cases)
    (hnodup : (inv.cases.map SpecCase.key).Nodup) (suite id : List Char) (sc : SpecCase) :
    inv.find suite id = some sc ↔ sc ∈ inv.cases ∧ sc.key = inventoryKey suite id := by
  rw [find_eq_find? hindex]
  constructor
  · intro h
    exact ⟨List.mem_of_find?_eq_some h, by simpa using List.find?_some h⟩
  · rintro ⟨hmem, hkey⟩
    cases hfind : inv.cases.find? fun sc => decide (sc.key = inventoryKey suite id) with
    | none => exact absurd hkey (by simpa using List.find?_eq_none.1 hfind sc hmem)
    | some other =>
      have hother : other.key = inventoryKey suite id := by simpa using List.find?_some hfind
      rw [List.inj_on_of_nodup_map hnodup (List.mem_of_find?_eq_some hfind) hmem
        (hother.trans hkey.symm)]

/-! ## The load -/

/-- What an accepted load did: the cases are the rows of the files with the overrides applied, and
the index is theirs. -/
theorem load_ok {inventoryPath : String} {extras : List String} {overridesPath : String}
    {inv : SpecInventory} (h : SpecInventory.load fs inventoryPath extras overridesPath = .ok inv) :
    ∃ cases, cases = fileRows fs kDefaultSuite inventoryPath ++ extras.flatMap (fileRows fs []) ∧
      ((cases.map SpecCase.key).Nodup ↔
        ((fileRows fs kDefaultSuite inventoryPath).map SpecCase.key).Nodup) ∧
      applyOverrides cases (overrideEntries fs overridesPath) = .ok inv.cases ∧
      inv.byKey = indexFrom [] 0 inv.cases := by
  unfold SpecInventory.load at h
  obtain ⟨⟨suite, rows⟩, hprimary, h⟩ := except_bind_ok.1 h
  obtain ⟨m, hm, h⟩ := except_bind_ok.1 h
  obtain ⟨entries, hentries, h⟩ := except_bind_ok.1 h
  obtain ⟨cases, hcases, h⟩ := except_bind_ok.1 h
  cases h
  unfold readPrimary at hprimary
  obtain ⟨text, htext, hprimary⟩ := except_bind_ok.1 hprimary
  obtain ⟨suite', hsuite, hprimary⟩ := except_bind_ok.1 hprimary
  obtain ⟨rows', hrows, hprimary⟩ := except_bind_ok.1 hprimary
  cases hprimary
  have hfile := fileRows_eq htext hsuite hrows
  obtain ⟨hmerged, hnodup⟩ := mergeExtras_ok hm (fun _ => Iff.rfl)
  refine ⟨m.cases, ?_, ?_, ?_, rfl⟩
  · rw [hmerged, hfile]
  · rw [hnodup, hfile]
  · rw [overrideEntries, hentries]
    exact hcases

/-- Every case so far is of a suite that is listed. -/
def Merged.Covers (m : Merged) : Prop := ∀ sc ∈ m.cases, canonicalSuite sc.suite ∈ m.suites

theorem mergeRows_suites {path : String} {m m' : Merged} {rows : List SpecCase}
    (h : mergeRows path m rows = .ok m') : m'.suites = m.suites := by
  induction rows generalizing m with
  | nil =>
    cases h
    rfl
  | cons sc rest ih =>
    unfold mergeRows at h
    split at h
    · cases h
    · have hrest := ih h
      exact hrest

theorem mergeExtras_covers {m m' : Merged} {paths : List String}
    (h : mergeExtras fs m paths = .ok m') (htracks : m.Tracks) (hcovers : m.Covers) : m'.Covers := by
  induction paths generalizing m with
  | nil =>
    cases h
    exact hcovers
  | cons path rest ih =>
    unfold mergeExtras at h
    obtain ⟨text, -, h⟩ := except_bind_ok.1 h
    obtain ⟨suite, hsuite, h⟩ := except_bind_ok.1 h
    obtain ⟨rows, hrows, h⟩ := except_bind_ok.1 h
    obtain ⟨mid, hmid, h⟩ := except_bind_ok.1 h
    obtain ⟨hcases, hmidTracks, -⟩ := mergeRows_ok hmid htracks
    refine ih h hmidTracks fun sc hsc => ?_
    have hlisted : sc ∈ m.cases ∨ sc ∈ rows := List.mem_append.1 (hcases ▸ hsc)
    have hcanonical := resolveFileSuite_canonical hsuite
    dsimp only
    rw [mergeRows_suites hmid]
    rcases hlisted with hold | hnew
    · split
      · exact hcovers sc hold
      · exact List.mem_append_left _ (hcovers sc hold)
    · rw [(parseInventoryCases_ok hrows sc hnew).1]
      split
      · assumption
      · rw [hcanonical]
        exact List.mem_append_right _ (List.mem_singleton_self _)

/-- An inventory has the suite of each of its cases. -/
theorem load_hasSuite {inventoryPath : String} {extras : List String} {overridesPath : String}
    {inv : SpecInventory} (h : SpecInventory.load fs inventoryPath extras overridesPath = .ok inv) :
    ∀ sc ∈ inv.cases, inv.hasSuite sc.suite = true := by
  unfold SpecInventory.load at h
  obtain ⟨⟨suite, rows⟩, hprimary, h⟩ := except_bind_ok.1 h
  obtain ⟨m, hm, h⟩ := except_bind_ok.1 h
  obtain ⟨entries, -, h⟩ := except_bind_ok.1 h
  obtain ⟨cases, hcases, h⟩ := except_bind_ok.1 h
  cases h
  unfold readPrimary at hprimary
  obtain ⟨text, -, hprimary⟩ := except_bind_ok.1 hprimary
  obtain ⟨suite', hsuite, hprimary⟩ := except_bind_ok.1 hprimary
  obtain ⟨rows', hrows, hprimary⟩ := except_bind_ok.1 hprimary
  cases hprimary
  have hcovers : m.Covers := by
    refine mergeExtras_covers hm (fun _ => Iff.rfl) fun sc hsc => ?_
    rw [(parseInventoryCases_ok hrows sc hsc).1, resolveFileSuite_canonical hsuite]
    exact List.mem_singleton_self _
  intro sc hsc
  -- The overrides leave every case under its identity, and so in its suite.
  have hidentity : sc.identity ∈ m.cases.map SpecCase.identity := by
    rw [← applyOverrides_identities hcases]
    exact List.mem_map_of_mem hsc
  obtain ⟨row, hrow, hsame⟩ := List.mem_map.1 hidentity
  have hsuites : canonicalSuite row.suite = canonicalSuite sc.suite := congrArg Prod.fst hsame
  rw [SpecInventory.hasSuite, ← hsuites]
  exact List.contains_iff_mem.2 (hcovers row hrow)

/-- The rows of the primary file are all of one suite, so their keys are their canonical ids. -/
theorem primary_keys_nodup_iff (fs : String → Option (List Char)) (inventoryPath : String) :
    ((fileRows fs kDefaultSuite inventoryPath).map SpecCase.key).Nodup ↔
      ((fileRows fs kDefaultSuite inventoryPath).map fun sc => canonicalise sc.id).Nodup := by
  have hkeys : (fileRows fs kDefaultSuite inventoryPath).map SpecCase.key =
      ((fileRows fs kDefaultSuite inventoryPath).map fun sc => canonicalise sc.id).map
        (canonicalSuite kDefaultSuite ++ ':' :: ·) := by
    rw [List.map_map]
    refine List.map_congr_left fun sc hsc => ?_
    rw [SpecCase.key, inventoryKey, (fileRows_spec hsc).2.2 rfl]
    rfl
  rw [hkeys]
  refine List.nodup_map_iff fun a b hab => ?_
  exact (List.cons.inj (List.append_cancel_left hab)).2

theorem identities_distinct_iff {cases : List SpecCase} (hcolon : ∀ sc ∈ cases, ':' ∉ sc.suite) :
    (cases.map SpecCase.identity).Nodup ↔ (cases.map SpecCase.key).Nodup := by
  unfold List.Nodup
  rw [List.pairwise_map, List.pairwise_map]
  refine List.Pairwise.iff_of_mem fun ha hb => not_congr ?_
  exact (key_eq_iff (hcolon _ ha) (hcolon _ hb)).symm

/-- **Exactly when an accepted load keeps identities apart.** For every primary file, list of extra
files and overrides file that `load` accepts, the loaded cases have distinct identities, the lookup
finds each by its key and every override entry that names a case is in effect on it and on no other,
if and only if the files are unambiguous. -/
theorem identity_iff (fs : String → Option (List Char)) (inventoryPath : String)
    (extras : List String) (overridesPath : String) (inv : SpecInventory)
    (hload : SpecInventory.load fs inventoryPath extras overridesPath = .ok inv) :
    Identity (overrideEntries fs overridesPath) inv ↔
      Unambiguous fs inventoryPath extras overridesPath := by
  obtain ⟨cases, hcases, hprimary, happly, hindex⟩ := load_ok hload
  have hspec : ∀ sc ∈ cases, ':' ∉ sc.suite ∧ sc.axes = {} := by
    intro sc hsc
    rw [hcases, List.mem_append, List.mem_flatMap] at hsc
    rcases hsc with hsc | ⟨path, -, hsc⟩
    · exact ⟨(fileRows_spec hsc).1, (fileRows_spec hsc).2.1⟩
    · exact ⟨(fileRows_spec hsc).1, (fileRows_spec hsc).2.1⟩
  have hwritten : writtenKeys fs inventoryPath extras = cases.map SpecCase.key := by
    rw [hcases, writtenKeys]
  have hdistinct : inv.cases.Pairwise (fun a b => a.identity ≠ b.identity) ↔
      (cases.map SpecCase.key).Nodup := by
    rw [← identities_distinct_iff fun sc hsc => (hspec sc hsc).1,
      ← applyOverrides_identities happly]
    exact List.pairwise_map.symm
  constructor
  · intro hid
    have hnodup := hdistinct.1 hid.distinct
    refine ⟨(primary_keys_nodup_iff fs inventoryPath).1 (hprimary.1 hnodup), ?_⟩
    intro entry hentry entry' hentry' htarget hnames
    rw [hwritten] at hnames
    obtain ⟨sc, hsc, hkey⟩ := List.mem_map.1 hnames
    -- the case both entries name, as it stands in the result
    have hloaded := applyOverrides_eq_map happly hnodup
    have hmem := hloaded ▸ List.mem_map_of_mem hsc
    rw [← hid.inEffect entry hentry _ hmem hkey,
      ← hid.inEffect entry' hentry' _ hmem (hkey.trans htarget)]
  · intro hun
    have hnodup := hprimary.2 ((primary_keys_nodup_iff fs inventoryPath).2 hun.primary)
    have hloaded := applyOverrides_eq_map happly hnodup
    have hkeys : inv.cases.map SpecCase.key = cases.map SpecCase.key := by
      rw [hloaded, List.map_map]
      rfl
    refine ⟨hdistinct.2 hnodup, find_eq_some_iff_of_nodup hindex (hkeys ▸ hnodup), ?_, ?_⟩
    · intro entry hentry sc hsc hkey
      rw [hloaded] at hsc
      obtain ⟨row, hrow, rfl⟩ := List.mem_map.1 hsc
      refine axesAfter_of_agree hentry hkey (fun e he hetarget => ?_) _
      refine hun.overrides e he entry hentry (hetarget.symm.trans hkey) ?_
      rw [hwritten, ← hetarget]
      exact List.mem_map.2 ⟨row, hrow, rfl⟩
    · intro sc hsc
      rw [hloaded] at hsc
      obtain ⟨row, hrow, rfl⟩ := List.mem_map.1 hsc
      have hafter := axesAfter_cases row.key row.axes (overrideEntries fs overridesPath)
      rwa [(hspec row hrow).2] at hafter ⊢

/-! ## Three sets of files -/

/-- A primary inventory with one ARP case, another with the case twice, and two overrides files. -/
def arpFiles (path : String) : Option (List Char) :=
  if path = "one.json" then
    some "\x7b\"cases\": [\x7b\"case_id\": \"ARP_03\"\x7d]\x7d".toList
  else if path = "twice.json" then
    some ("\x7b\"cases\": [\x7b\"case_id\": \"ARP_03\"\x7d, " ++
      "\x7b\"case_id\": \"arp_03\"\x7d]\x7d").toList
  else if path = "serial.json" then
    some "\x7b\"overrides\": \x7b\"ARP_03\": \x7b\"timing_serial\": true\x7d\x7d\x7d".toList
  else if path = "both.json" then
    some ("\x7b\"overrides\": \x7b\"ARP_03\": \x7b\"timing_serial\": true\x7d, " ++
      "\"tc8:ARP_03\": \x7b\"expected\": false\x7d\x7d\x7d").toList
  else none

def arpCase (id : String) (axes : CaseAxes) : SpecCase where
  suite := kDefaultSuite
  id := id.toList
  category := (id.toList.takeWhile (· ≠ '_'))
  section_ := []
  split := []
  line := 0
  axes := axes

def arpInventory (cases : List SpecCase) : SpecInventory where
  cases := cases
  suites := [kDefaultSuite]
  byKey := [("tc8:ARP_03".toList, 0)]

theorem identity_one_override :
    SpecInventory.load arpFiles "one.json" [] "serial.json" =
        .ok (arpInventory [arpCase "ARP_03" { timingSerial := true }]) ∧
      Identity (overrideEntries arpFiles "serial.json")
        (arpInventory [arpCase "ARP_03" { timingSerial := true }]) := by
  have hload : SpecInventory.load arpFiles "one.json" [] "serial.json" =
      .ok (arpInventory [arpCase "ARP_03" { timingSerial := true }]) := by decide +kernel
  refine ⟨hload, (identity_iff arpFiles "one.json" [] "serial.json" _ hload).2 ⟨?_, ?_⟩⟩
  · decide +kernel
  · decide +kernel

/-- Two accepted loads that break the promise: a primary file that holds a case twice, and an
overrides file that names one case by two spellings, where the second replaces the first. -/
theorem identity_fails_on_repeats :
    (SpecInventory.load arpFiles "twice.json" [] "" =
        .ok (arpInventory [arpCase "ARP_03" {}, arpCase "arp_03" {}]) ∧
      ¬ Identity (overrideEntries arpFiles "")
        (arpInventory [arpCase "ARP_03" {}, arpCase "arp_03" {}])) ∧
    (SpecInventory.load arpFiles "one.json" [] "both.json" =
        .ok (arpInventory [arpCase "ARP_03" { expected := false }]) ∧
      ¬ Identity (overrideEntries arpFiles "both.json")
        (arpInventory [arpCase "ARP_03" { expected := false }])) := by
  refine ⟨⟨by decide +kernel, fun h => ?_⟩, ⟨by decide +kernel, fun h => ?_⟩⟩
  · have hdistinct := h.distinct
    revert hdistinct
    decide +kernel
  · have hserial := h.inEffect
      ("ARP_03".toList, "\x7b\"timing_serial\": true\x7d".toList) (by decide +kernel)
      (arpCase "ARP_03" { expected := false }) (List.mem_singleton.2 rfl) (by decide +kernel)
    revert hserial
    decide +kernel

end Tc8Harness.Sce
