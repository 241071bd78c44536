import Tc8Harness.Cli.ExpectKeys
import Tc8Harness.Inventory.Identity

/-!
# Negative rows

`--negative-row` of `cli/commands/test_command.cpp`: a run of a case with one of its expectations
replaced by a wrong one, to show that the case grades it. The rows of a case are authored in the
overrides file, the primary as a pair and the others in two parallel arrays; `SpecInventory::load`
refuses what could overwrite a flip. `runListNegRows` lists each row with the verdict it should end in.

`load_checked` says that every case of an accepted load has axes that passed the checks, and
`negative_row_tests_its_flip` that a negative run then grades against the flip of its row.
-/

namespace Tc8Harness.Cli

open Sce

/-! ## The run -/

def lowerText (s : List Char) : List Char := s.map Char.toLower

/-- The flip is the driver's own value for its key, so the run would falsify nothing. -/
def flipIsNoOp (flip : List Char) (baseTokens : List (List Char)) : Bool :=
  if '=' ∉ flip then false
  else
    let key := tokenKey flip ++ ['=']
    match baseTokens.reverse.find? fun token => token.take key.length = key with
    | some token => lowerText (token.drop key.length) == lowerText (flip.drop key.length)
    | none => false

/-- The flip of a row: the primary's, or that of an extra row. -/
def rowFlip (a : CaseAxes) (index : Nat) : List Char :=
  if index = 0 then a.negWrongToken else a.negExtraWrongTokens.getD (index - 1) []

/-- The tokens the run applies: the driver's own, then the case's overrides, or in a negative run the
flip and the overrides of the primary row. -/
def effectiveExpect (sc : Option SpecCase) (entryId : String) (negativeRow : Bool) (index : Int)
    (expectTokens : List (List Char)) : Except String (List (List Char)) :=
  if negativeRow then
    match sc with
    | none =>
      .error ("error: --negative-row: case " ++ entryId ++
        " has no authored negative row (neg_wrong_token) in the inventory overrides\n")
    | some sc =>
      if sc.axes.negWrongToken = [] then
        .error ("error: --negative-row: case " ++ entryId ++
          " has no authored negative row (neg_wrong_token) in the inventory overrides\n")
      else if index < 0 ∨ index.toNat > sc.axes.negExtraWrongTokens.length then
        .error ("error: --negative-row-index " ++ toString index ++ ": case " ++ entryId ++
          " authors " ++ toString (sc.axes.negExtraWrongTokens.length + 1) ++ " row(s) (0.." ++
          toString sc.axes.negExtraWrongTokens.length ++ ")\n")
      else
        let flip := rowFlip sc.axes index.toNat
        if flipIsNoOp flip expectTokens then
          .error ("error: --negative-row: the flip '" ++ String.ofList flip ++
            "' equals this deployment's own --expect value for that key, so it would falsify " ++
            "nothing; the row's wrong value is wrong only for the reference deployment\n")
        else
          .ok (expectTokens ++ [flip] ++ if index = 0 then sc.axes.negExpectOverrides else [])
  else
    match sc with
    | none => .ok expectTokens
    | some sc => .ok (expectTokens ++ sc.axes.expectOverrides)

/-! ## The listing -/

/-- `CASE|INDEX|token|verdict`. -/
def rowText (qid : List Char) (index : Nat) (token verdict : List Char) : List Char :=
  qid ++ '|' :: ((toString index).toList ++ '|' :: (token ++ '|' :: verdict))

/-- The rows `runListNegRows` lists for a case. An index past the end of either array is `none`. -/
def emitRows (qid : List Char) (a : CaseAxes) : Option (List (List Char)) :=
  if a.negWrongToken = [] then some []
  else do
    let extras ← (List.range a.negExtraWrongTokens.length).mapM fun i => do
      let token ← a.negExtraWrongTokens[i]?
      let verdict ← a.negExtraExpectFails[i]?
      some (rowText qid (i + 1) token verdict)
    some (rowText qid 0 a.negWrongToken a.negExpectFail :: extras)

/-! ## What an accepted load has checked -/

/-- The checks on negative rows, as facts. -/
structure RowsChecked (a : CaseAxes) : Prop where
  /-- No override of the primary row has the key of its flip. -/
  overrides : a.negWrongToken ≠ [] →
    ∀ token ∈ a.negExpectOverrides, tokenKey token ≠ tokenKey a.negWrongToken
  /-- The arrays of the extra rows are parallel. -/
  parallel : a.negExtraWrongTokens.length = a.negExtraExpectFails.length
  /-- A row flips another key than the rows before it, unless its key is empty. -/
  flips : (a.negWrongToken :: a.negExtraWrongTokens).Pairwise fun earlier later =>
    tokenKey later ≠ [] → tokenKey earlier ≠ tokenKey later

theorem refuseWhen_ok {bad : Prop} [Decidable bad] {text : String} {u : Unit}
    (h : refuseWhen bad text = .ok u) : ¬ bad := by
  unfold refuseWhen at h
  split at h
  · cases h
  · assumption

theorem refuseAny_ok {α : Type} {xs : List α} {bad : α → Bool} {text : α → String} {u : Unit}
    (h : refuseAny xs bad text = .ok u) : ∀ x ∈ xs, bad x = false := by
  unfold refuseAny at h
  split at h
  · cases h
  next hnone =>
    intro x hx
    exact Bool.eq_false_of_not_eq_true (List.find?_eq_none.1 hnone x hx)

theorem refuseRepeatedFlips_ok {id : String} {flipped toks : List (List Char)} {u : Unit}
    (h : refuseRepeatedFlips id flipped toks = .ok u) :
    (∀ tok ∈ toks, ∀ key ∈ flipped, tokenKey tok ≠ [] → key ≠ tokenKey tok) ∧
      toks.Pairwise fun earlier later => tokenKey later ≠ [] → tokenKey earlier ≠ tokenKey later := by
  induction toks generalizing flipped with
  | nil => exact ⟨by simp, List.Pairwise.nil⟩
  | cons tok toks ih =>
    unfold refuseRepeatedFlips at h
    dsimp only at h
    split at h
    · cases h
    next hfirst =>
      obtain ⟨hflipped, hpairs⟩ := ih h
      refine ⟨?_, List.Pairwise.cons ?_ hpairs⟩
      · intro t ht key hkey hne heq
        rcases List.mem_cons.1 ht with rfl | ht
        · exact hfirst ⟨hne, heq ▸ hkey⟩
        · exact hflipped t ht key (List.mem_append_left _ hkey) hne heq
      · intro t ht hne
        exact hflipped t ht (tokenKey tok) (List.mem_append_right _ (List.mem_singleton_self _)) hne

theorem rowsChecked_of_checkAxes {id : String} {a : CaseAxes} {u : Unit}
    (h : checkAxes id a = .ok u) : RowsChecked a := by
  unfold checkAxes at h
  obtain ⟨-, -, h⟩ := except_bind_ok.1 h
  obtain ⟨-, -, h⟩ := except_bind_ok.1 h
  obtain ⟨-, -, h⟩ := except_bind_ok.1 h
  obtain ⟨-, -, h⟩ := except_bind_ok.1 h
  obtain ⟨_, hcollide, h⟩ := except_bind_ok.1 h
  obtain ⟨_, hparallel, h⟩ := except_bind_ok.1 h
  obtain ⟨-, -, h⟩ := except_bind_ok.1 h
  obtain ⟨-, -, h⟩ := except_bind_ok.1 h
  obtain ⟨_, hflips, -⟩ := except_bind_ok.1 h
  refine ⟨?_, not_not.1 (refuseWhen_ok hparallel), ?_⟩
  · intro hrow token htoken heq
    rw [if_neg hrow] at hcollide
    have hbad := refuseAny_ok hcollide token htoken
    rw [beq_eq_false_iff_ne] at hbad
    exact hbad heq
  · obtain ⟨hprimary, hpairs⟩ := refuseRepeatedFlips_ok hflips
    refine List.Pairwise.cons ?_ hpairs
    intro tok htok hne
    exact hprimary tok htok _ (List.mem_singleton_self _) hne

theorem rowsChecked_default : RowsChecked {} :=
  ⟨fun h => absurd rfl h, rfl, List.pairwise_singleton _ _⟩

theorem assignAxes_checked {entry : OverrideEntry} (hentry : RowsChecked (readAxes entry.2))
    {cases : List SpecCase} (hcases : ∀ sc ∈ cases, RowsChecked sc.axes) :
    ∀ sc ∈ assignAxes entry cases, RowsChecked sc.axes := by
  induction cases with
  | nil => exact hcases
  | cons first rest ih =>
    have hrest : ∀ sc ∈ rest, RowsChecked sc.axes := fun sc hsc =>
      hcases sc (List.mem_cons_of_mem _ hsc)
    unfold assignAxes
    intro sc hsc
    split at hsc
    · rcases List.mem_cons.1 hsc with rfl | hsc
      · exact hentry
      · exact hrest sc hsc
    · rcases List.mem_cons.1 hsc with rfl | hsc
      · exact hcases sc List.mem_cons_self
      · exact ih hrest sc hsc

/-- Entry by entry: the axes in place have all been checked. -/
theorem applyOverrides_checked {cases cases' : List SpecCase} {entries : List OverrideEntry}
    (h : applyOverrides cases entries = .ok cases') (hcases : ∀ sc ∈ cases, RowsChecked sc.axes) :
    ∀ sc ∈ cases', RowsChecked sc.axes := by
  induction entries generalizing cases with
  | nil =>
    cases h
    exact hcases
  | cons entry rest ih =>
    unfold applyOverrides at h
    obtain ⟨_, hcheck, h⟩ := except_bind_ok.1 h
    unfold checkEntry at hcheck
    obtain ⟨-, -, hcheck⟩ := except_bind_ok.1 hcheck
    exact ih h (assignAxes_checked (rowsChecked_of_checkAxes hcheck) hcases)

/-- **Every case of an accepted load has checked rows.** -/
theorem load_checked {fs : String → Option (List Char)} {inventoryPath : String}
    {extras : List String} {overridesPath : String} {inv : SpecInventory}
    (h : SpecInventory.load fs inventoryPath extras overridesPath = .ok inv) :
    ∀ sc ∈ inv.cases, RowsChecked sc.axes := by
  obtain ⟨cases, hcases, -, happly, -⟩ := load_ok h
  refine applyOverrides_checked happly fun sc hsc => ?_
  rw [hcases, List.mem_append, List.mem_flatMap] at hsc
  have hplain : sc.axes = {} := by
    rcases hsc with hsc | ⟨path, -, hsc⟩
    · exact (fileRows_spec hsc).2.1
    · exact (fileRows_spec hsc).2.1
  rw [hplain]
  exact rowsChecked_default

/-! ## Rows by their index -/

section Rows

variable {a : CaseAxes} {i : Nat}

/-- The flip and the verdict of a row, from the same position of the parallel arrays. -/
structure RowAt (a : CaseAxes) (i : Nat) (flip verdict : List Char) : Prop where
  token : (a.negWrongToken :: a.negExtraWrongTokens)[i]? = some flip
  verdict : (a.negExpectFail :: a.negExtraExpectFails)[i]? = some verdict

theorem exists_rowAt (h : RowsChecked a) (hi : i ≤ a.negExtraWrongTokens.length) :
    ∃ verdict, RowAt a i (rowFlip a i) verdict := by
  cases i with
  | zero => exact ⟨a.negExpectFail, rfl, rfl⟩
  | succ i =>
    have hverdict : i < a.negExtraExpectFails.length := by
      rw [← h.parallel]
      exact hi
    refine ⟨a.negExtraExpectFails[i], ?_, ?_⟩
    · rw [List.getElem?_cons_succ, List.getElem?_eq_getElem hi]
      unfold rowFlip
      rw [if_neg (Nat.succ_ne_zero i), Nat.add_sub_cancel, List.getD_eq_getElem _ _ hi]
    · rw [List.getElem?_cons_succ, List.getElem?_eq_getElem hverdict]

/-- The tokens that a negative run applies after its flip. -/
def afterFlip (a : CaseAxes) (i : Nat) : List (List Char) := if i = 0 then a.negExpectOverrides else []

theorem afterFlip_other_key (h : RowsChecked a) (hrow : a.negWrongToken ≠ []) :
    ∀ token ∈ afterFlip a i, tokenKey token ≠ tokenKey (rowFlip a i) := by
  intro token htoken
  unfold afterFlip at htoken
  split at htoken
  · next hzero =>
    rw [rowFlip, if_pos hzero]
    exact h.overrides hrow token htoken
  · cases htoken

theorem effectiveExpect_row {sc : SpecCase} (hrow : sc.axes.negWrongToken ≠ [])
    (hi : i ≤ sc.axes.negExtraWrongTokens.length) {expectTokens : List (List Char)}
    (hflip : flipIsNoOp (rowFlip sc.axes i) expectTokens = false) (entryId : String) :
    effectiveExpect (some sc) entryId true i expectTokens =
      .ok (expectTokens ++ rowFlip sc.axes i :: afterFlip sc.axes i) := by
  have hindex : ¬ ((i : Int) < 0 ∨ (i : Int).toNat > sc.axes.negExtraWrongTokens.length) := by
    omega
  unfold effectiveExpect
  rw [if_pos rfl]
  dsimp only
  rw [if_neg hrow, if_neg hindex, Int.toNat_natCast, hflip, if_neg Bool.false_ne_true,
    List.append_assoc, List.singleton_append]
  unfold afterFlip
  simp only [Int.natCast_eq_zero]

theorem mapM_eq_some_map {α β : Type} {f : α → Option β} {g : α → β} {l : List α}
    (h : ∀ x ∈ l, f x = some (g x)) : l.mapM f = some (l.map g) := by
  induction l with
  | nil => rfl
  | cons x l ih =>
    rw [List.mapM_cons, h x List.mem_cons_self, ih fun y hy => h y (List.mem_cons_of_mem _ hy)]
    rfl

/-- The listing names every row with its own verdict. -/
theorem emitRows_getElem? (h : RowsChecked a) (hrow : a.negWrongToken ≠ []) (qid : List Char) :
    ∃ rows, emitRows qid a = some rows ∧ rows.length = a.negExtraWrongTokens.length + 1 ∧
      ∀ i flip verdict, RowAt a i flip verdict → rows[i]? = some (rowText qid i flip verdict) := by
  have hmap : (List.range a.negExtraWrongTokens.length).mapM (fun i => do
      let token ← a.negExtraWrongTokens[i]?
      let verdict ← a.negExtraExpectFails[i]?
      some (rowText qid (i + 1) token verdict)) =
        some ((List.range a.negExtraWrongTokens.length).map fun i =>
          rowText qid (i + 1) (a.negExtraWrongTokens.getD i []) (a.negExtraExpectFails.getD i [])) := by
    refine mapM_eq_some_map fun i hi => ?_
    have htoken : i < a.negExtraWrongTokens.length := List.mem_range.1 hi
    have hverdict : i < a.negExtraExpectFails.length := h.parallel ▸ htoken
    rw [List.getElem?_eq_getElem htoken, List.getElem?_eq_getElem hverdict,
      List.getD_eq_getElem _ _ htoken, List.getD_eq_getElem _ _ hverdict]
    rfl
  unfold emitRows
  rw [if_neg hrow, hmap]
  refine ⟨_, rfl, by simp, ?_⟩
  rintro (_ | i) flip verdict ⟨htoken, hverdict⟩
  · cases htoken
    cases hverdict
    rfl
  · rw [List.getElem?_cons_succ] at htoken hverdict
    have hi : i < a.negExtraWrongTokens.length := (List.getElem?_eq_some_iff.1 htoken).1
    rw [List.getElem?_cons_succ, List.getElem?_map, List.getElem?_range hi, Option.map_some,
      List.getD_eq_getElem?_getD, List.getD_eq_getElem?_getD, htoken, hverdict]
    rfl

/-- Rows at different positions flip different keys, unless the key is empty. -/
theorem RowsChecked.flips_apart (h : RowsChecked a) {i j : Nat} (hne : i ≠ j)
    {flip flip' verdict verdict' : List Char} (hi : RowAt a i flip verdict)
    (hj : RowAt a j flip' verdict') (hkey : tokenKey flip = tokenKey flip') : tokenKey flip = [] := by
  by_contra hempty
  obtain ⟨hilen, higet⟩ := List.getElem?_eq_some_iff.1 hi.token
  obtain ⟨hjlen, hjget⟩ := List.getElem?_eq_some_iff.1 hj.token
  have hpairs := List.pairwise_iff_getElem.1 h.flips
  rcases Nat.lt_or_gt_of_ne hne with hlt | hlt
  · have hapart := hpairs i j hilen hjlen hlt
    rw [higet, hjget] at hapart
    exact hapart (hkey ▸ hempty) hkey
  · have hapart := hpairs j i hjlen hilen hlt
    rw [higet, hjget] at hapart
    exact hapart hempty hkey.symm

end Rows

/-! ## Negative runs -/

theorem rowKey_ne_nil (g : Group) (k : Row g) : rowKey g k ≠ [] := by
  have hname : ∀ g ∈ Group.all, ∀ row ∈ ekRows g, row.1 ≠ "" := by decide
  intro h
  have hrow := hname g (by cases g <;> decide) _ (List.get_mem (ekRows g) k)
  have hempty := (List.append_eq_nil_iff.1 h).2
  exact hrow (String.toList_eq_nil_iff.1 hempty)

/-- No group has a key without letters, so a token with an empty key ends the command. -/
theorem applyTokens_empty_key {inetPton : List Char → Option UInt32} {flip : List Char}
    (hempty : tokenKey flip = []) (before after : List (List Char)) (config : Config) :
    applyTokens inetPton (before ++ flip :: after) config = none := by
  rw [applyTokens_append]
  cases applyTokens inetPton before config with
  | none => rfl
  | some mid =>
    rw [Option.bind_some, applyTokens]
    cases hflip : applyExpectToken inetPton flip Group.all mid with
    | none => rfl
    | some next =>
      obtain ⟨g, k, value, hassigns, -⟩ := applyExpectToken_some hflip
      exact absurd (hassigns.1.symm.trans hempty) (rowKey_ne_nil g k)

/-- **A negative run grades against the flip of its row.** Take any files that `load` accepts, a case
of theirs with a primary row, and the index of one of its rows. The row's flip and verdict stand at the
same position of the parallel arrays, and the listing shows them together. Whatever tokens the driver
passes, the run applies them, then the flip, then tokens of which none has the flip's key (or is refused
because the flip is the driver's own value); a run whose tokens are all accepted has the flip's value
for that key. Another row of the case has another key, unless both keys are empty, and then both runs
are refused. -/
theorem negative_row_tests_its_flip (inetPton : List Char → Option UInt32)
    (fs : String → Option (List Char)) (inventoryPath : String) (extras : List String)
    (overridesPath : String) (inv : SpecInventory)
    (hload : SpecInventory.load fs inventoryPath extras overridesPath = .ok inv) (sc : SpecCase)
    (hsc : sc ∈ inv.cases) (hrow : sc.axes.negWrongToken ≠ []) (i : Nat)
    (hi : i ≤ sc.axes.negExtraWrongTokens.length) :
    ∃ flip verdict, RowAt sc.axes i flip verdict ∧
      (∀ qid, ∃ rows, emitRows qid sc.axes = some rows ∧
        rows[i]? = some (rowText qid i flip verdict)) ∧
      (∀ entryId expectTokens, flipIsNoOp flip expectTokens = false →
        ∃ after, effectiveExpect (some sc) entryId true i expectTokens =
            .ok (expectTokens ++ flip :: after) ∧
          (∀ token ∈ after, tokenKey token ≠ tokenKey flip) ∧
          ∀ config config', applyTokens inetPton (expectTokens ++ flip :: after) config =
              some config' →
            ∃ g k value, Assigns inetPton flip g k value ∧ config' g k = value) ∧
      ∀ j flip' verdict', j ≠ i → RowAt sc.axes j flip' verdict' →
        tokenKey flip = tokenKey flip' → tokenKey flip = [] ∧
          ∀ before after config, applyTokens inetPton (before ++ flip :: after) config = none := by
  have hchecked := load_checked hload sc hsc
  obtain ⟨verdict, hat⟩ := exists_rowAt hchecked hi
  refine ⟨rowFlip sc.axes i, verdict, hat, ?_, ?_, ?_⟩
  · intro qid
    obtain ⟨rows, hrows, -, hget⟩ := emitRows_getElem? hchecked hrow qid
    exact ⟨rows, hrows, hget i _ _ hat⟩
  · intro entryId expectTokens hflip
    have hafter : ∀ token ∈ afterFlip sc.axes i, tokenKey token ≠ tokenKey (rowFlip sc.axes i) :=
      afterFlip_other_key hchecked hrow
    refine ⟨afterFlip sc.axes i, effectiveExpect_row hrow hi hflip entryId, hafter, ?_⟩
    intro config config' hrun
    exact applyTokens_last hrun hafter
  · intro j flip' verdict' hne hat' hkey
    have hempty := hchecked.flips_apart (Ne.symm hne) hat hat' hkey
    exact ⟨hempty, applyTokens_empty_key hempty⟩

/-! ## Two overrides files -/

/-- A primary inventory with one case, and two overrides files that author two rows for it: one flips
two keys, the other's tokens have no key. -/
def rowFiles (path : String) : Option (List Char) :=
  if path = "cases.json" then
    some "\x7b\"cases\": [\x7b\"case_id\": \"SD_01\"\x7d]\x7d".toList
  else if path = "rows.json" then
    some ("\x7b\"overrides\": \x7b\"SD_01\": \x7b\"neg_wrong_token\": \"ttl=7\", " ++
      "\"neg_expect_fail\": \"fail:ttl\", \"neg_expect_overrides\": [\"udp_port=30501\"], " ++
      "\"neg_extra_wrong_tokens\": [\"major_version=9\"], " ++
      "\"neg_extra_expect_fails\": [\"fail:major\"]\x7d\x7d\x7d").toList
  else if path = "keyless.json" then
    some ("\x7b\"overrides\": \x7b\"SD_01\": \x7b\"neg_wrong_token\": \"=7\", " ++
      "\"neg_expect_fail\": \"fail:ttl\", \"neg_extra_wrong_tokens\": [\"=9\"], " ++
      "\"neg_extra_expect_fails\": [\"fail:major\"]\x7d\x7d\x7d").toList
  else none

def rowCase (axes : CaseAxes) : SpecCase where
  suite := kDefaultSuite
  id := "SD_01".toList
  category := "SD".toList
  section_ := []
  split := []
  line := 0
  axes := axes

def rowInventory (axes : CaseAxes) : SpecInventory where
  cases := [rowCase axes]
  suites := [kDefaultSuite]
  byKey := [("tc8:SD_01".toList, 0)]

def twoRows : CaseAxes where
  negWrongToken := "ttl=7".toList
  negExpectFail := "fail:ttl".toList
  negExpectOverrides := ["udp_port=30501".toList]
  negExtraWrongTokens := ["major_version=9".toList]
  negExtraExpectFails := ["fail:major".toList]

def keylessRows : CaseAxes where
  negWrongToken := "=7".toList
  negExpectFail := "fail:ttl".toList
  negExtraWrongTokens := ["=9".toList]
  negExtraExpectFails := ["fail:major".toList]

theorem negative_row_of_two_rows :
    SpecInventory.load rowFiles "cases.json" [] "rows.json" = .ok (rowInventory twoRows) ∧
      ∃ flip verdict, RowAt twoRows 0 flip verdict ∧
        ∃ after, effectiveExpect (some (rowCase twoRows)) "SD_01" true 0 ["ttl=3".toList] =
            .ok (["ttl=3".toList] ++ flip :: after) ∧
          ∀ token ∈ after, tokenKey token ≠ tokenKey flip := by
  have hload : SpecInventory.load rowFiles "cases.json" [] "rows.json" =
      .ok (rowInventory twoRows) := by decide +kernel
  refine ⟨hload, ?_⟩
  obtain ⟨flip, verdict, hat, -, hrun, -⟩ := negative_row_tests_its_flip (fun _ => none) rowFiles
    "cases.json" [] "rows.json" _ hload (rowCase twoRows) (List.mem_singleton_self _) (by decide) 0
    (by decide)
  have hflip : "ttl=7".toList = flip := Option.some.inj hat.token
  obtain ⟨after, heffective, hafter, -⟩ := hrun "SD_01" ["ttl=3".toList] (by
    rw [← hflip]
    decide)
  exact ⟨flip, verdict, hat, after, heffective, hafter⟩

/-- The load accepts a case whose two rows both flip the empty key. -/
theorem two_rows_flip_one_key :
    SpecInventory.load rowFiles "cases.json" [] "keyless.json" = .ok (rowInventory keylessRows) ∧
      RowAt keylessRows 0 "=7".toList "fail:ttl".toList ∧
      RowAt keylessRows 1 "=9".toList "fail:major".toList ∧
      tokenKey "=7".toList = tokenKey "=9".toList :=
  ⟨by decide +kernel, ⟨rfl, rfl⟩, ⟨rfl, rfl⟩, by decide⟩

end Tc8Harness.Cli
