import Tc8Harness.Inventory.Registration

/-!
# What the registry holds after any calls

Four calls add entries and each checks identity against a set of its own: `add` and `addAlias` against
the entries, `composeIterations` against the entries before the batch, `addIteratedCase` against
nothing. `Inv` is what every run keeps whose calls meet `Permitted`; `registry_identity` reads the
registry's contract off it. A case declared twice is the call that `Permitted` is there to leave out:
both declarations are composed, under one identity.
-/

namespace Tc8Harness.Sce

namespace CaseEntry

theorem isCase_iff (e : CaseEntry) (suite id : List Char) :
    e.isCase suite id = true ↔
      toUpperText e.suite = toUpperText suite ∧ toUpperText e.id = toUpperText id := by
  rw [isCase, Bool.and_eq_true, equalsIgnoreAsciiCase_iff, equalsIgnoreAsciiCase_iff]

end CaseEntry

namespace Catalog

variable {φ : Type} {reg : Catalog φ}

/-! ## Units -/

theorem isUnitOf_iff (e : CatalogEntry φ) (suite id : List Char) :
    e.isUnitOf suite id = true ↔ iterationOf e.id ≠ 0 ∧
      toUpperText e.suite = toUpperText suite ∧
      toUpperText (iterationParent e.id) = toUpperText id := by
  rw [CatalogEntry.isUnitOf, Bool.and_eq_true, Bool.and_eq_true, equalsIgnoreAsciiCase_iff,
    equalsIgnoreAsciiCase_iff, CatalogEntry.isIteration, bne_iff_ne, and_assoc]

theorem mem_units {suite id : List Char} {e : CatalogEntry φ} :
    e ∈ reg.units suite id ↔ e ∈ reg.entries ∧ e.isUnitOf suite id = true := by
  rw [units, List.mem_insertionSort, List.mem_filter]

theorem units_append {suite id : List Char} {new : List (CatalogEntry φ)}
    (h : ∀ c ∈ new, c.isUnitOf suite id = false) (decls : List IteratedCaseDecl) :
    ({ entries := reg.entries ++ new, iterated := decls } : Catalog φ).units suite id =
      reg.units suite id := by
  have hnone : new.filter (fun e => e.isUnitOf suite id) = [] :=
    List.filter_eq_nil_iff.2 fun c hc => by simp [h c hc]
  simp only [units, List.filter_append, hnone, List.append_nil]

/-- An iteration's id is its parent's, the tag and its number. -/
theorem eq_iterationParent_append {id : List Char} (h : iterationOf id ≠ 0) :
    id = iterationParent id ++ ['_', 'I', 'T', digitChar (iterationOf id)] := by
  unfold iterationParent
  rw [if_pos h]
  unfold iterationOf at h ⊢
  split at h
  · next d x rest hrev =>
    have hid : id = (rest.reverse ++ [x]) ++ ['_', 'I', 'T', d] := by
      rw [← List.reverse_reverse id, hrev]
      simp
    split at h
    · next hd =>
      have hchar : digitChar (d.toNat - '0'.toNat) = d := by
        have hlo : '0'.toNat ≤ d.toNat := Nat.le_trans (by decide) hd.1
        rw [digitChar, Nat.add_sub_cancel' hlo, Char.ofNat_toNat]
      simp only [if_pos hd, hchar]
      have htake : id.take (id.length - 4) = rest.reverse ++ [x] := by
        rw [hid, List.take_left' (by simp)]
      rw [htake, ← hid]
    · exact absurd rfl h
  · exact absurd rfl h

/-- Two iterations of one case with one number are one entry. -/
theorem isCase_of_units {a b : CatalogEntry φ} {suite id : List Char}
    (ha : a.isUnitOf suite id = true) (hb : b.isUnitOf suite id = true)
    (hnumber : iterationOf a.id = iterationOf b.id) : a.isCase b.suite b.id = true := by
  obtain ⟨hai, has, hap⟩ := (isUnitOf_iff a suite id).1 ha
  obtain ⟨hbi, hbs, hbp⟩ := (isUnitOf_iff b suite id).1 hb
  refine (CaseEntry.isCase_iff _ _ _).2 ⟨has.trans hbs.symm, ?_⟩
  rw [eq_iterationParent_append hai, eq_iterationParent_append hbi, hnumber, toUpperText,
    toUpperText, List.map_append, List.map_append]
  exact congrArg (· ++ _) (hap.trans hbp.symm)

/-- No two entries are one case. -/
def Distinct (entries : List (CatalogEntry φ)) : Prop :=
  entries.Pairwise fun a b => a.isCase b.suite b.id = false

theorem isCase_symm (a b : CaseEntry) : a.isCase b.suite b.id = b.isCase a.suite a.id := by
  rw [Bool.eq_iff_iff, CaseEntry.isCase_iff, CaseEntry.isCase_iff, eq_comm,
    eq_comm (a := toUpperText a.id)]

instance : Std.Symm fun a b : CatalogEntry φ => a.isCase b.suite b.id = false where
  symm _ _ h := (isCase_symm _ _).trans h

theorem Distinct.eq {entries : List (CatalogEntry φ)} (h : Distinct entries)
    {a b : CatalogEntry φ} (ha : a ∈ entries) (hb : b ∈ entries)
    (hcase : a.isCase b.suite b.id = true) : a = b := by
  by_contra hne
  have := List.Pairwise.forall h ha hb hne
  rw [hcase] at this
  cases this

theorem units_increasing (h : Distinct reg.entries) (suite id : List Char) :
    (reg.units suite id).Pairwise fun a b => iterationOf a.id < iterationOf b.id := by
  let byNumber (a b : CatalogEntry φ) : Prop := iterationOf a.id ≤ iterationOf b.id
  have : Std.Total byNumber := ⟨fun a b => Nat.le_total _ _⟩
  have : IsTrans (CatalogEntry φ) byNumber := ⟨fun _ _ _ => Nat.le_trans⟩
  have hsorted : (reg.units suite id).Pairwise byNumber := List.pairwise_insertionSort byNumber _
  have hdistinct : (reg.units suite id).Pairwise fun a b => a.isCase b.suite b.id = false :=
    (List.Perm.pairwise_iff (fun h => (isCase_symm _ _).trans h) (List.perm_insertionSort byNumber _)).2
      (List.Pairwise.filter _ h)
  refine (hsorted.and hdistinct).imp_of_mem ?_
  rintro a b ha hb ⟨hle, hne⟩
  refine Nat.lt_of_le_of_ne hle fun heq => ?_
  rw [isCase_of_units (mem_units.1 ha).2 (mem_units.1 hb).2 heq] at hne
  cases hne

theorem getLsbD_foldl_or (units : List (CatalogEntry φ)) (caps : BitVec 32) (i : Nat) :
    (units.foldl (fun caps u => caps ||| u.requiredCapabilities) caps).getLsbD i = true ↔
      caps.getLsbD i = true ∨ ∃ u ∈ units, u.requiredCapabilities.getLsbD i = true := by
  induction units generalizing caps with
  | nil => simp
  | cons u us ih => simp [ih, or_assoc]

/-! ## The invariant -/

/-- `e` lists the registered iterations of its own identity, with their capabilities. -/
def Owns (reg : Catalog φ) (e : CatalogEntry φ) : Prop :=
  e.iterations = (reg.units e.suite e.id).map (fun u => u.id) ∧
    e.requiredCapabilities =
      (reg.units e.suite e.id).foldl (fun caps u => caps ||| u.requiredCapabilities) 0

/-- `e` is an alias of `t`. -/
structure IsAliasOf (e t : CatalogEntry φ) : Prop where
  isAlias : e.isAlias = true
  authored : t.isAlias = false
  names : e.aliasOf = ⟨t.suite, t.id⟩
  otherSuite : equalsIgnoreAsciiCase t.suite e.suite = false

structure Inv (reg : Catalog φ) : Prop where
  distinct : Distinct reg.entries
  aliases : ∀ e ∈ reg.entries, e.isAlias = true → ∃ t ∈ reg.entries, IsAliasOf e t
  composites : ∀ e ∈ reg.entries, e.isComposite = true →
    reg.Owns e ∨ ∃ t ∈ reg.entries, IsAliasOf e t ∧ reg.Owns t ∧ t.isComposite = true ∧
      e.iterations = t.iterations ∧ e.requiredCapabilities = t.requiredCapabilities

/-- An entry of this identity would be an iteration of a case that is composed already. -/
def JoinsComposed (reg : Catalog φ) (suite id : List Char) : Prop :=
  iterationOf id ≠ 0 ∧ ∃ e ∈ reg.entries, e.isComposite = true ∧
    e.isCase suite (iterationParent id) = true ∧ reg.Owns e

instance (reg : Catalog φ) (e : CatalogEntry φ) : Decidable (reg.Owns e) :=
  inferInstanceAs (Decidable (_ ∧ _))

instance (reg : Catalog φ) (suite id : List Char) : Decidable (reg.JoinsComposed suite id) :=
  inferInstanceAs (Decidable (_ ∧ ∃ e ∈ reg.entries, _))

/-- Entries that none of the registered ones takes for its own iterations leave the composites as they
are. -/
theorem Owns.append {e : CatalogEntry φ} {new : List (CatalogEntry φ)} (h : reg.Owns e)
    (he : e ∈ reg.entries) (hcomposite : e.isComposite = true)
    (hnew : ∀ c ∈ new, ¬ reg.JoinsComposed c.suite c.id) :
    ({ reg with entries := reg.entries ++ new } : Catalog φ).Owns e := by
  have hunit : ∀ c ∈ new, c.isUnitOf e.suite e.id = false := by
    intro c hc
    rw [Bool.eq_false_iff, Ne, isUnitOf_iff]
    rintro ⟨hiter, hsuite, hparent⟩
    exact hnew c hc ⟨hiter, e, he, hcomposite,
      (CaseEntry.isCase_iff _ _ _).2 ⟨hsuite.symm, hparent.symm⟩, h⟩
  unfold Owns
  rw [units_append hunit]
  exact h

/-- An iteration's parent is never the empty id. -/
theorem Owns.id_ne_nil {e : CatalogEntry φ} (h : reg.Owns e) (hcomposite : e.isComposite = true) :
    e.id ≠ [] := by
  intro hempty
  have hunits : reg.units e.suite e.id ≠ [] := by
    intro hnil
    simp [CatalogEntry.isComposite, h.1, hnil] at hcomposite
  obtain ⟨u, hu⟩ := List.exists_mem_of_ne_nil _ hunits
  obtain ⟨hiter, -, hparent⟩ := (isUnitOf_iff _ _ _).1 (mem_units.1 hu).2
  have hparent' : iterationParent u.id = [] := by
    simpa [hempty, toUpperText] using hparent
  have hid := eq_iterationParent_append hiter
  rw [hparent'] at hid
  rw [hid] at hiter
  exact hiter rfl

theorem Inv.append {new : List (CatalogEntry φ)} (h : Inv reg)
    (hfresh : ∀ c ∈ new, ∀ e ∈ reg.entries, e.isCase c.suite c.id = false)
    (hnew : Distinct new) (hjoins : ∀ c ∈ new, ¬ reg.JoinsComposed c.suite c.id)
    (halias : ∀ c ∈ new, c.isAlias = true → ∃ t ∈ reg.entries, IsAliasOf c t)
    (hcomposite : ∀ c ∈ new, c.isComposite = true →
      ({ reg with entries := reg.entries ++ new } : Catalog φ).Owns c ∨
        ∃ t ∈ reg.entries, IsAliasOf c t ∧ reg.Owns t ∧ t.isComposite = true ∧
          c.iterations = t.iterations ∧ c.requiredCapabilities = t.requiredCapabilities) :
    Inv { reg with entries := reg.entries ++ new } := by
  have hcopied {c : CatalogEntry φ} (hc : ∃ t ∈ reg.entries, IsAliasOf c t ∧ reg.Owns t ∧
      t.isComposite = true ∧ c.iterations = t.iterations ∧
      c.requiredCapabilities = t.requiredCapabilities) :
      ∃ t ∈ reg.entries ++ new, IsAliasOf c t ∧
        ({ reg with entries := reg.entries ++ new } : Catalog φ).Owns t ∧ t.isComposite = true ∧
        c.iterations = t.iterations ∧ c.requiredCapabilities = t.requiredCapabilities := by
    obtain ⟨t, ht, hof, howns, hcomp, hrest⟩ := hc
    exact ⟨t, List.mem_append_left _ ht, hof, howns.append ht hcomp hjoins, hcomp, hrest⟩
  refine ⟨?_, ?_, ?_⟩
  · exact List.pairwise_append.2 ⟨h.distinct, hnew, fun e he c hc => hfresh c hc e he⟩
  · intro e he hisAlias
    obtain ⟨t, ht, hof⟩ : ∃ t ∈ reg.entries, IsAliasOf e t := by
      rcases List.mem_append.1 he with hold | hc
      · exact h.aliases e hold hisAlias
      · exact halias e hc hisAlias
    exact ⟨t, List.mem_append_left _ ht, hof⟩
  · intro e he hcomp
    rcases List.mem_append.1 he with hold | hc
    · rcases h.composites e hold hcomp with howns | hcopy
      · exact .inl (howns.append hold hcomp hjoins)
      · exact .inr (hcopied hcopy)
    · exact (hcomposite e hc hcomp).imp_right hcopied

/-! ## The calls -/

/-- A call whose entries keep clear of the cases that are composed: authored entries are neither
aliases nor composites, the declarations composed are of distinct cases and none is itself an
iteration of a declared case, and an alias of an iteration names one that is not an alias. -/
def Permitted (reg : Catalog φ) : Call φ → Prop
  | .add e => e.isAlias = false ∧ e.isComposite = false ∧ ¬ reg.JoinsComposed e.suite e.id
  | .addIteratedCase _ => True
  | .composeIterations =>
    (reg.iterated.Pairwise fun a b =>
      ¬ (equalsIgnoreAsciiCase a.suite b.suite = true ∧ equalsIgnoreAsciiCase a.id b.id = true)) ∧
    ∀ d ∈ reg.iterated, ¬ reg.JoinsComposed d.suite d.id ∧
      (iterationOf d.id ≠ 0 → reg.isDeclared d.suite (iterationParent d.id) = false)
  | .addAlias a => ¬ reg.JoinsComposed a.suite a.id ∧
    (a.iteration ≠ 0 → ∀ x ∈ reg.entries, x.isUnitOf a.targetSuite a.targetId = true →
      (iterationOf x.id : Int) = a.iteration → x.isAlias = false)

theorem find_eq_none {suite id : List Char} (h : reg.find suite id = none) :
    ∀ e ∈ reg.entries, e.isCase suite id = false := by
  intro e he
  simpa using List.find?_eq_none.1 h e he

theorem mem_of_find {suite id : List Char} {e : CatalogEntry φ} (h : reg.find suite id = some e) :
    e ∈ reg.entries ∧ toUpperText e.suite = toUpperText suite ∧
      toUpperText e.id = toUpperText id := by
  unfold find at h
  have hcase := List.find?_some h
  exact ⟨List.mem_of_find?_eq_some h, (CaseEntry.isCase_iff _ _ _).1 hcase⟩

theorem Inv.add {e : CatalogEntry φ} {reg' : Catalog φ} (h : Inv reg)
    (hp : reg.Permitted (.add e)) (hadd : reg.add e = some reg') : Inv reg' := by
  obtain ⟨hauthored, hplain, hjoins⟩ := hp
  simp only [Catalog.add, Option.ite_none_left_eq_some, Option.some.injEq] at hadd
  obtain ⟨hno, rfl⟩ := hadd
  have hfresh : ∀ x ∈ reg.entries, x.isCase e.suite e.id = false := by
    simpa using hno
  refine h.append ?_ (List.pairwise_singleton _ _) ?_ ?_ ?_ <;> intro c hc <;>
    obtain rfl := List.mem_singleton.1 hc
  · exact hfresh
  · exact hjoins
  · exact fun halias => absurd halias (by simp [hauthored])
  · exact fun hcomposite => absurd hcomposite (by simp [hplain])

/-- What an alias copies: a registered entry of the target suite that is no alias. -/
theorem Inv.aliasTarget {a : CaseAlias} {t : CatalogEntry φ} (h : Inv reg)
    (hp : reg.Permitted (.addAlias a)) (ht : reg.aliasTarget a = .ok t) :
    t ∈ reg.entries ∧ t.isAlias = false ∧ toUpperText t.suite = toUpperText a.targetSuite := by
  unfold Catalog.aliasTarget at ht
  split at ht
  · cases ht
  · next target hfind =>
    obtain ⟨htarget, hsuite, hid⟩ := mem_of_find hfind
    split at ht
    · cases ht
    · next hauthored =>
      rw [Bool.not_eq_true] at hauthored
      split at ht
      · next hnumber =>
        split at ht
        · cases ht
        · next hcomp =>
          rw [Bool.not_eq_true, Bool.not_eq_false'] at hcomp
          split at ht
          · cases ht
          · next unit hunit =>
            cases ht
            obtain ⟨unitId, hunitId, hunit⟩ := Option.bind_eq_some_iff.1 hunit
            obtain ⟨ht, htsuite, htid⟩ := mem_of_find hunit
            -- The unit found is the one listed: the target owns its list, and ids are unique.
            have howns : reg.Owns target := by
              rcases h.composites target htarget hcomp with howns | ⟨x, -, hof, -⟩
              · exact howns
              · exact absurd hof.isAlias (by simp [hauthored])
            have hlisted := List.mem_of_find?_eq_some hunitId
            rw [howns.1] at hlisted
            obtain ⟨x, hx, rfl⟩ := List.mem_map.1 hlisted
            obtain ⟨hxmem, hxunit⟩ := mem_units.1 hx
            obtain ⟨hxiter, hxsuite, hxparent⟩ := (isUnitOf_iff _ _ _).1 hxunit
            have hxt : x = t := h.distinct.eq hxmem ht ((CaseEntry.isCase_iff _ _ _).2
              ⟨(hxsuite.trans hsuite).trans htsuite.symm, htid.symm⟩)
            subst hxt
            refine ⟨ht, hp.2 hnumber x ht ?_ (by simpa using List.find?_some hunitId), htsuite⟩
            exact (isUnitOf_iff _ _ _).2 ⟨hxiter, htsuite, hxparent.trans hid⟩
      · cases ht
        exact ⟨htarget, hauthored, hsuite⟩

theorem Inv.addAlias {a : CaseAlias} (h : Inv reg) (hp : reg.Permitted (.addAlias a)) :
    Inv (reg.addAlias a).1 := by
  unfold Catalog.addAlias
  split
  · exact h
  · split
    · exact h
    · next hother =>
      split
      · exact h
      · next t htarget =>
        split
        · exact h
        · next hfree =>
          obtain ⟨ht, hauthored, hsuite⟩ := h.aliasTarget hp htarget
          have hfind : reg.find a.suite a.id = none := by simpa using hfree
          have hother' : equalsIgnoreAsciiCase t.suite a.suite = false := by
            rw [equalsIgnoreAsciiCase_iff] at hother
            rw [Bool.eq_false_iff, Ne, equalsIgnoreAsciiCase_iff]
            exact fun heq => hother (heq.symm.trans hsuite)
          refine h.append ?_ (List.pairwise_singleton _ _) ?_ ?_ ?_ <;> intro c hc <;>
            obtain rfl := List.mem_singleton.1 hc
          · exact find_eq_none hfind
          · exact hp.1
          · exact fun halias => ⟨t, ht, halias, hauthored, rfl, hother'⟩
          · intro hcomposite
            have howns : reg.Owns t := by
              rcases h.composites t ht hcomposite with howns | ⟨x, -, hof, -⟩
              · exact howns
              · exact absurd hof.isAlias (by simp [hauthored])
            have halias := howns.id_ne_nil hcomposite
            exact .inr ⟨t, ht, ⟨by simpa [CatalogEntry.isAlias] using halias, hauthored, rfl, hother'⟩,
              howns, hcomposite, rfl, rfl⟩

/-- What the second loop composes of a declaration. -/
theorem composeOne_eq_ok {d : IteratedCaseDecl} {c : CatalogEntry φ}
    (h : reg.composeOne d = .ok c) :
    ∃ first ∈ reg.units d.suite d.id, c = composite d first (reg.units d.suite d.id) ∧
      reg.find d.suite d.id = none := by
  unfold composeOne at h
  split at h
  · cases h
  · next first rest hunits =>
    simp only at h
    split at h
    · cases h
    · split at h
      · cases h
      · next hfree =>
        split at h
        · cases h
        · cases h
          rw [hunits]
          exact ⟨first, List.mem_cons_self, rfl, by simpa using hfree⟩

/-- A batch composed: one entry a declaration, in order. -/
theorem mapM_eq_ok {α β ε : Type} {f : α → Except ε β} {as : List α} {bs : List β}
    (h : as.mapM f = .ok bs) : List.Forall₂ (fun a b => f a = .ok b) as bs := by
  induction as generalizing bs with
  | nil =>
    cases h
    exact .nil
  | cons a as ih =>
    rw [List.mapM_cons] at h
    cases ha : f a with
    | error e => simp [ha, bind, Except.bind] at h
    | ok b =>
      cases has : as.mapM f with
      | error e => simp [ha, has, bind, Except.bind] at h
      | ok rest =>
        simp only [ha, has, bind, Except.bind, pure, Except.pure, Except.ok.injEq] at h
        subst h
        exact .cons ha (ih has)

theorem exists_of_mem_right {α β : Type} {R : α → β → Prop} {as : List α} {bs : List β}
    (h : List.Forall₂ R as bs) {b : β} (hb : b ∈ bs) : ∃ a ∈ as, R a b := by
  induction h with
  | nil => cases hb
  | cons hab _ ih =>
    rcases List.mem_cons.1 hb with rfl | hb
    · exact ⟨_, List.mem_cons_self, hab⟩
    · obtain ⟨a, ha, hr⟩ := ih hb
      exact ⟨a, List.mem_cons_of_mem _ ha, hr⟩

/-- The composites of distinct declarations are distinct. -/
theorem distinct_composed {decls : List IteratedCaseDecl} {composed : List (CatalogEntry φ)}
    (h : List.Forall₂ (fun d c => reg.composeOne d = .ok c) decls composed)
    (hdecls : decls.Pairwise fun a b =>
      ¬ (equalsIgnoreAsciiCase a.suite b.suite = true ∧ equalsIgnoreAsciiCase a.id b.id = true)) :
    Distinct composed := by
  induction h with
  | nil => exact .nil
  | cons hc hcs ih =>
    rw [List.pairwise_cons] at hdecls
    refine List.pairwise_cons.2 ⟨?_, ih hdecls.2⟩
    intro c' hc'
    obtain ⟨_, -, rfl, -⟩ := composeOne_eq_ok hc
    obtain ⟨d', hd', hcd'⟩ := exists_of_mem_right hcs hc'
    obtain ⟨_, -, rfl, -⟩ := composeOne_eq_ok hcd'
    rw [Bool.eq_false_iff]
    intro hcase
    rw [CaseEntry.isCase, Bool.and_eq_true] at hcase
    exact hdecls.1 d' hd' hcase

theorem Inv.composeIterations (h : Inv reg) (hp : reg.Permitted .composeIterations) :
    Inv reg.composeIterations.1 := by
  obtain ⟨hdecls, hclear⟩ := hp
  unfold Catalog.composeIterations
  split
  · exact h
  · split
    · exact h
    · next composed hcomposed =>
      have hall := mapM_eq_ok hcomposed
      have hfrom {c : CatalogEntry φ} (hc : c ∈ composed) : ∃ d ∈ reg.iterated, ∃ first ∈
          reg.units d.suite d.id, c = composite d first (reg.units d.suite d.id) ∧
            reg.find d.suite d.id = none := by
        obtain ⟨d, hd, hone⟩ := exists_of_mem_right hall hc
        exact ⟨d, hd, composeOne_eq_ok hone⟩
      refine h.append ?_ (distinct_composed hall hdecls) ?_ ?_ ?_
      · intro c hc
        obtain ⟨d, -, first, -, rfl, hfind⟩ := hfrom hc
        exact find_eq_none hfind
      · intro c hc
        obtain ⟨d, hd, first, -, rfl, -⟩ := hfrom hc
        exact (hclear d hd).1
      · intro c hc halias
        obtain ⟨d, -, first, hfirst, rfl, -⟩ := hfrom hc
        obtain ⟨hmem, hunit⟩ := mem_units.1 hfirst
        obtain ⟨t, ht, hof⟩ := h.aliases first hmem halias
        refine ⟨t, ht, halias, hof.authored, hof.names, ?_⟩
        have hother := hof.otherSuite
        rw [Bool.eq_false_iff, Ne, equalsIgnoreAsciiCase_iff] at hother ⊢
        exact fun heq => hother (heq.trans ((isUnitOf_iff _ _ _).1 hunit).2.1.symm)
      · intro c hc _
        obtain ⟨d, hd, first, -, rfl, -⟩ := hfrom hc
        left
        have hunit : ∀ c ∈ composed, c.isUnitOf d.suite d.id = false := by
          intro c' hc'
          obtain ⟨d', hd', first', -, rfl, -⟩ := hfrom hc'
          rw [Bool.eq_false_iff, Ne, isUnitOf_iff]
          rintro ⟨hiter, hsuite, hparent⟩
          have hnot := (hclear d' hd').2 hiter
          simp only [isDeclared, List.any_eq_false, Bool.and_eq_true, equalsIgnoreAsciiCase_iff] at hnot
          exact hnot d hd ⟨hsuite.symm, hparent.symm⟩
        unfold Owns
        rw [show (composite d first (reg.units d.suite d.id)).suite = d.suite from rfl,
          show (composite d first (reg.units d.suite d.id)).id = d.id from rfl, units_append hunit]
        exact ⟨rfl, rfl⟩

theorem Inv.step {call : Call φ} {reg' : Catalog φ} (h : Inv reg) (hp : reg.Permitted call)
    (hstep : reg.step call = some reg') : Inv reg' := by
  cases call with
  | add e => exact h.add hp hstep
  | addIteratedCase d =>
    cases hstep
    exact ⟨h.distinct, h.aliases, h.composites⟩
  | composeIterations =>
    cases hstep
    exact h.composeIterations hp
  | addAlias a =>
    cases hstep
    exact h.addAlias hp

/-! ## Runs -/

/-- Every call of the run is permitted where it is made. -/
def AllPermitted : Catalog φ → List (Call φ) → Prop
  | _, [] => True
  | reg, call :: calls =>
    reg.Permitted call ∧
      match reg.step call with
      | none => True
      | some reg' => AllPermitted reg' calls

instance decidablePermitted (reg : Catalog φ) : (call : Call φ) → Decidable (reg.Permitted call)
  | .add _ => inferInstanceAs (Decidable (_ ∧ _ ∧ _))
  | .addIteratedCase _ => isTrue trivial
  | .composeIterations => inferInstanceAs (Decidable (_ ∧ _))
  | .addAlias _ => inferInstanceAs (Decidable (_ ∧ _))

instance decidableAllPermitted : (reg : Catalog φ) → (calls : List (Call φ)) →
    Decidable (AllPermitted reg calls)
  | _, [] => isTrue trivial
  | reg, call :: calls =>
    haveI : Decidable (match reg.step call with
        | none => True
        | some reg' => AllPermitted reg' calls) :=
      match reg.step call with
      | none => isTrue trivial
      | some reg' => decidableAllPermitted reg' calls
    inferInstanceAs (Decidable (_ ∧ _))

theorem inv_empty : Inv ({} : Catalog φ) := ⟨.nil, nofun, nofun⟩

theorem Inv.run {calls : List (Call φ)} {reg' : Catalog φ} (h : Inv reg)
    (hp : AllPermitted reg calls) (hrun : reg.run calls = some reg') : Inv reg' := by
  induction calls generalizing reg with
  | nil =>
    cases hrun
    exact h
  | cons call calls ih =>
    rw [Catalog.run, List.foldlM_cons, Option.bind_eq_bind, Option.bind_eq_some_iff] at hrun
    obtain ⟨next, hstep, hrun⟩ := hrun
    rw [AllPermitted, hstep] at hp
    exact ih (h.step hp.1 hstep) hp.2 hrun

/-- `e` lists the registered iterations of the case `suite`, `id`, all of them by increasing number,
and needs what any of them needs. -/
structure Lists (reg : Catalog φ) (suite id : List Char) (e : CatalogEntry φ) : Prop where
  increasing : e.iterations.Pairwise fun a b => iterationOf a < iterationOf b
  exactly : ∀ unitId, unitId ∈ e.iterations ↔
    ∃ x ∈ reg.entries, x.isUnitOf suite id = true ∧ x.id = unitId
  capabilities : ∀ i, e.requiredCapabilities.getLsbD i = true ↔
    ∃ x ∈ reg.entries, x.isUnitOf suite id = true ∧ x.requiredCapabilities.getLsbD i = true

/-- The registry's contract. A composite lists the iterations of its own identity, or, when it is an
alias, those of the case it names. -/
structure Identity (reg : Catalog φ) : Prop where
  distinct : Distinct reg.entries
  aliases : ∀ e ∈ reg.entries, e.isAlias = true → ∃ t ∈ reg.entries, IsAliasOf e t
  composites : ∀ e ∈ reg.entries, e.isComposite = true → reg.Lists e.suite e.id e ∨
    e.isAlias = true ∧ reg.Lists e.aliasOf.suite e.aliasOf.id e

theorem Owns.lists {e t : CatalogEntry φ} (h : reg.Owns t) (hdistinct : Distinct reg.entries)
    (hiterations : e.iterations = t.iterations)
    (hcaps : e.requiredCapabilities = t.requiredCapabilities) : reg.Lists t.suite t.id e := by
  refine ⟨?_, ?_, ?_⟩
  · rw [hiterations, h.1]
    exact List.pairwise_map.2 (units_increasing hdistinct _ _)
  · intro unitId
    rw [hiterations, h.1]
    simp only [List.mem_map, mem_units, and_assoc]
  · intro i
    rw [hcaps, h.2, getLsbD_foldl_or]
    simp [mem_units, and_assoc]

theorem Inv.identity (h : Inv reg) : Identity reg := by
  refine ⟨h.distinct, h.aliases, ?_⟩
  intro e he hcomposite
  rcases h.composites e he hcomposite with howns | ⟨t, -, hof, howns, -, hiterations, hcaps⟩
  · exact .inl (howns.lists h.distinct rfl rfl)
  · right
    rw [hof.names]
    exact ⟨hof.isAlias, howns.lists h.distinct hiterations hcaps⟩

theorem addAlias_refused {a : CaseAlias} (h : (reg.addAlias a).2 ≠ none) :
    (reg.addAlias a).1 = reg := by
  unfold Catalog.addAlias at h ⊢
  split
  · rfl
  · split
    · rfl
    · split
      · rfl
      · split
        · rfl
        · simp_all

theorem composeIterations_refused (h : reg.composeIterations.2 ≠ none) :
    reg.composeIterations.1 = reg := by
  unfold Catalog.composeIterations at h ⊢
  split
  · rfl
  · split
    · rfl
    · simp_all

/-- **Registry identity**: after any calls that do not abort and are permitted, no two entries are one
case, every alias names an authored entry of another suite, every composite lists its iterations; and
a call that is refused changes nothing. -/
theorem registry_identity {calls : List (Call φ)} (hp : AllPermitted {} calls)
    (hrun : Catalog.run {} calls = some reg) :
    Identity reg ∧ (∀ a, (reg.addAlias a).2 ≠ none → (reg.addAlias a).1 = reg) ∧
      (reg.composeIterations.2 ≠ none → reg.composeIterations.1 = reg) :=
  ⟨(inv_empty.run hp hrun).identity, fun _ => addAlias_refused, composeIterations_refused⟩

/-- Two iterations, their case composed, an alias of the case and one of its second iteration. -/
def exampleCalls : List (Call Unit) :=
  [.add { suite := kDefaultSuite, id := "TCP_BASICS_04_IT2".toList, factory := some (),
          requiredCapabilities := 2 },
    .add { suite := kDefaultSuite, id := "TCP_BASICS_04_IT1".toList, factory := some (),
           requiredCapabilities := 1 },
    .addIteratedCase { id := "TCP_BASICS_04".toList },
    .composeIterations,
    .addAlias { suite := "vendorx".toList, id := "VX_TCP_04".toList, targetSuite := kDefaultSuite,
                targetId := "TCP_BASICS_04".toList },
    .addAlias { suite := "vendorx".toList, id := "VX_TCP_05".toList, targetSuite := kDefaultSuite,
                targetId := "TCP_BASICS_04".toList, iteration := 2 }]

theorem registry_identity_of_example :
    ∃ reg, Catalog.run {} exampleCalls = some reg ∧ reg.entries.length = 5 ∧ Identity reg := by
  have hlength : (Catalog.run {} exampleCalls).map (fun reg => reg.entries.length) = some 5 := by
    decide +kernel
  obtain ⟨reg, hrun, hfive⟩ := Option.map_eq_some_iff.1 hlength
  exact ⟨reg, hrun, hfive, (registry_identity (by decide +kernel) hrun).1⟩

/-- A case declared twice is composed twice: two entries, one identity. -/
theorem declared_twice_composed_twice :
    ∃ reg, Catalog.run {} [
        .add { suite := kDefaultSuite, id := "TCP_BASICS_04_IT1".toList, factory := some () },
        .addIteratedCase { id := "TCP_BASICS_04".toList },
        .addIteratedCase { id := "TCP_BASICS_04".toList },
        .composeIterations] = some reg ∧
      reg.entries.map (fun e => (e.suite, e.id)) =
        [(kDefaultSuite, "TCP_BASICS_04_IT1".toList), (kDefaultSuite, "TCP_BASICS_04".toList),
          (kDefaultSuite, "TCP_BASICS_04".toList)] ∧
      ¬ Identity reg := by
  refine ⟨_, rfl, by decide +kernel, fun h => ?_⟩
  have := h.distinct
  revert this
  unfold Distinct
  decide +kernel

end Catalog

end Tc8Harness.Sce
