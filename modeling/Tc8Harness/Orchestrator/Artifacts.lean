import Tc8Harness.Inventory.CaseSuite
import Tc8Harness.Lib.UnixPath
import Tc8Harness.Orchestrator.Unit

/-!
# A unit's artifacts

`UnitArtifacts` of `dut/env/orchestrator/src/dispatch.rs`: the files one unit's run reads and
writes, named from the rendered unit. The schedule is checked on another key (`refuseDuplicates`),
and the harness resolves a unit's token by a third (`SameCase`).

`unitsApart_iff` says exactly which accepted schedules keep their units apart: those without a pair
of units whose names are spellings of one path, without a bare token that is another unit's
`CASE#N`, and without a bare token beside its qualified spelling.
-/

namespace Tc8Harness.Orchestrator

open Tc8Harness.UnixPath
open Tc8Harness.Sce (CaseRegistry SameCase BareTwin toUpperText sameCase_iff)

/-- The part of `Config` that places a unit's files. -/
structure ArtifactConfig where
  logDir : Option (List Char)
  workRoot : List Char

structure UnitArtifacts where
  /-- The harness's stdout and stderr; the verdict is read from here. -/
  harnessLog : List Char
  /-- The DUT's output; the DUT-ready marker is read from here. -/
  dutLog : List Char
  /-- The harness's capture-armed signal. -/
  ready : List Char
  /-- The orchestrator's DUT-ready signal to the harness. -/
  go : List Char
  /-- Every captured frame; only with a log directory. -/
  pcap : Option (List Char)
  /-- The live state stream; only with a log directory. -/
  states : Option (List Char)

namespace UnitArtifacts

/-- With a log directory the files stay there; without one they are scratch under the worker's
directory. -/
def new (cfg : ArtifactConfig) (w : Nat) (unit : UnitId) : UnitArtifacts :=
  let stem := unit.render.toList
  let dir :=
    match cfg.logDir with
    | some dir => dir
    | none => join cfg.workRoot (toString w).toList
  let kept := cfg.logDir.isSome
  { harnessLog := join dir (stem ++ ".harness.log".toList)
    dutLog := join dir (stem ++ ".dut.log".toList)
    ready := join dir (stem ++ ".harness.ready".toList)
    go := join dir (stem ++ ".harness.go".toList)
    pcap := if kept then some (join dir (stem ++ ".pcap".toList)) else none
    states := if kept then some (join dir (stem ++ ".states.ndjson".toList)) else none }

def paths (a : UnitArtifacts) : List (List Char) :=
  [a.harnessLog, a.dutLog, a.ready, a.go] ++ a.pcap.toList ++ a.states.toList

end UnitArtifacts

/-! ## What a schedule promises, and what breaks it -/

/-- No path of `u` is a path of `v`, as path equality compares them. -/
def PathsApart (cfg : ArtifactConfig) (u v : UnitId) : Prop :=
  ∀ w w', ∀ p ∈ (UnitArtifacts.new cfg w u).paths, ∀ q ∈ (UnitArtifacts.new cfg w' v).paths,
    components p ≠ components q

/-- The harness runs the two units as one row of one case. -/
def SameUnit (reg : CaseRegistry) (u v : UnitId) : Prop :=
  u.row = v.row ∧ SameCase reg u.case.toList v.case.toList

/-- Units at different positions share no artifact and are not one (case, row). -/
def UnitsApart (reg : CaseRegistry) (cfg : ArtifactConfig) (units : List UnitId) : Prop :=
  units.Pairwise fun u v => PathsApart cfg u v ∧ ¬ SameUnit reg u v

/-- Where a name stands under `dir`: the directory it lies in and its last part. -/
def stemKey (dir name : List Char) : Components × List Char :=
  (parent (join dir name), lastName (join dir name))

/-- `u` is a case of its own whose token is spelled as the extra row `v` is rendered. -/
def RowTwin (dir : List Char) (u v : UnitId) : Prop :=
  u.row = 0 ∧ v.row ≠ 0 ∧ stemKey dir u.case.toList = stemKey dir v.render.toList

/-- The two units are given one name under `dir`: tokens of one row that are spellings of one path,
or a bare token that reads as the other's extra row. -/
def NameTwins (dir : List Char) (u v : UnitId) : Prop :=
  (u.row = v.row ∧ stemKey dir u.case.toList = stemKey dir v.case.toList) ∨
    RowTwin dir u v ∨ RowTwin dir v u

/-- One unit's token is bare and the other's is its qualified spelling, for the same row. -/
def QualifiedTwins (reg : CaseRegistry) (u v : UnitId) : Prop :=
  u.row = v.row ∧
    (BareTwin reg u.case.toList v.case.toList ∨ BareTwin reg v.case.toList u.case.toList)

instance (dir : List Char) (u v : UnitId) : Decidable (RowTwin dir u v) :=
  inferInstanceAs (Decidable (_ ∧ _ ∧ _))

instance (dir : List Char) (u v : UnitId) : Decidable (NameTwins dir u v) :=
  inferInstanceAs (Decidable (_ ∨ _ ∨ _))

instance (reg : CaseRegistry) (u v : UnitId) : Decidable (QualifiedTwins reg u v) :=
  inferInstanceAs (Decidable (_ ∧ _))

/-! ## One name, one set of files -/

def artifactSuffixes : List (List Char) :=
  [".harness.log", ".dut.log", ".harness.ready", ".harness.go", ".pcap", ".states.ndjson"].map
    String.toList

theorem paths_eq (dir workRoot : List Char) (w : Nat) (u : UnitId) :
    (UnitArtifacts.new ⟨some dir, workRoot⟩ w u).paths =
      artifactSuffixes.map fun s => join dir (u.render.toList ++ s) := rfl

theorem artifactSuffixes_no_slash : ∀ s ∈ artifactSuffixes, '/' ∉ s := by decide

theorem artifactSuffixes_length : ∀ s ∈ artifactSuffixes, 2 ≤ s.length := by decide

/-- No artifact's ending is the ending of another. -/
theorem artifactSuffixes_suffix_free :
    ∀ s ∈ artifactSuffixes, ∀ t ∈ artifactSuffixes, s <:+ t → s = t := by decide

theorem append_artifactSuffix_inj {a b s t : List Char} (hs : s ∈ artifactSuffixes)
    (ht : t ∈ artifactSuffixes) (h : a ++ s = b ++ t) : a = b := by
  have hst : s = t := by
    have hsuf : s <:+ b ++ t := h ▸ List.suffix_append a s
    rcases List.suffix_or_suffix_of_suffix hsuf (List.suffix_append b t) with hst | hts
    · exact artifactSuffixes_suffix_free s hs t ht hst
    · exact (artifactSuffixes_suffix_free t ht s hs hts).symm
  subst hst
  exact List.append_cancel_right h

/-- Two artifacts are one path only if the names they are made from stand at one place. -/
theorem components_artifact_eq_iff {dir m n s t : List Char} (hs : s ∈ artifactSuffixes)
    (ht : t ∈ artifactSuffixes) :
    components (join dir (m ++ s)) = components (join dir (n ++ t)) ↔
      parent (join dir m) = parent (join dir n) ∧
        lastName (join dir m) ++ s = lastName (join dir n) ++ t := by
  have hs' := artifactSuffixes_no_slash s hs
  have ht' := artifactSuffixes_no_slash t ht
  have hname : ∀ (l : List Char), ∀ r ∈ artifactSuffixes, isName (l ++ r) = true := by
    intro l r hr
    have hlen : 2 ≤ (l ++ r).length := by
      have := artifactSuffixes_length r hr
      rw [List.length_append]
      omega
    have hne : ∀ x : List Char, x.length < 2 → l ++ r ≠ x := fun x hx heq => by
      rw [heq] at hlen
      omega
    simp [isName, hne [] (by decide), hne ['.'] (by decide)]
  rw [join_append dir m hs', join_append dir n ht', components_eq_iff, parent_append _ hs',
    parent_append _ ht', lastName_append _ hs', lastName_append _ ht']
  · rw [lastName_append _ hs']
    exact hname _ s hs
  · rw [lastName_append _ ht']
    exact hname _ t ht

theorem pathsApart_iff (dir workRoot : List Char) (u v : UnitId) :
    PathsApart ⟨some dir, workRoot⟩ u v ↔
      stemKey dir u.render.toList ≠ stemKey dir v.render.toList := by
  simp only [PathsApart, paths_eq, List.forall_mem_map, stemKey, ne_eq, Prod.mk.injEq]
  constructor
  · rintro h ⟨hparent, hlast⟩
    have hmem : ".harness.log".toList ∈ artifactSuffixes := by decide
    refine h 0 0 _ hmem _ hmem ((components_artifact_eq_iff hmem hmem).2 ⟨hparent, ?_⟩)
    rw [hlast]
  · intro h _ _ s hs t ht heq
    obtain ⟨hparent, hlast⟩ := (components_artifact_eq_iff hs ht).1 heq
    exact h ⟨hparent, append_artifactSuffix_inj hs ht hlast⟩

/-! ## Which units are rendered to one name -/

/-- What a rendered unit appends to its token. -/
def rowText (row : Nat) : List Char := if row = 0 then [] else '#' :: row.repr.toList

theorem render_toList (u : UnitId) : u.render.toList = u.case.toList ++ rowText u.row := by
  unfold UnitId.render rowText
  split
  · simp
  · simp [String.toList_append]

theorem not_mem_repr {c : Char} (hc : c.isDigit = false) (n : Nat) : c ∉ n.repr.toList := by
  intro hmem
  rw [Nat.toList_repr] at hmem
  have := Nat.isDigit_of_mem_toDigits (by decide) (by decide) hmem
  rw [hc] at this
  cases this

theorem rowText_no_slash (row : Nat) : '/' ∉ rowText row := by
  unfold rowText
  split
  · simp
  · exact List.not_mem_cons_of_ne_of_not_mem (by decide) (not_mem_repr (by decide) row)

theorem stemKey_render (dir : List Char) (u : UnitId) :
    stemKey dir u.render.toList =
      ((stemKey dir u.case.toList).1, (stemKey dir u.case.toList).2 ++ rowText u.row) := by
  have hrow := rowText_no_slash u.row
  simp only [stemKey, render_toList, join_append dir _ hrow, parent_append _ hrow,
    lastName_append _ hrow]

/-- Digits hold no `#`, so the last one splits a rendered extra row. -/
theorem append_rowText_inj {a b : List Char} {m n : Nat} (hm : m ≠ 0) (hn : n ≠ 0)
    (h : a ++ rowText m = b ++ rowText n) : a = b ∧ m = n := by
  simp only [rowText, if_neg hm, if_neg hn] at h
  have hhash : ∀ k : Nat, '#' ∉ k.repr.toList := not_mem_repr (by decide)
  -- a longer left part would push its neighbour's `#` in among the digits
  have hempty : ∀ (x : List Char) (k l : Nat),
      '#' :: k.repr.toList = x ++ '#' :: l.repr.toList → x = [] := by
    rintro (_ | ⟨c, x⟩) k l heq
    · rfl
    · exact absurd (by simp [(List.cons.inj heq).2]) (hhash k)
  have hab : a = b := by
    rcases List.append_eq_append_iff.1 h with ⟨x, rfl, hx⟩ | ⟨x, rfl, hx⟩
    · simp [hempty x m n hx]
    · simp [hempty x n m hx]
  subst hab
  have hdigits := (List.cons.inj (List.append_cancel_left h)).2
  exact ⟨rfl, Nat.repr_injective (String.toList_injective hdigits)⟩

theorem stemKey_render_eq_iff (dir : List Char) (u v : UnitId) :
    stemKey dir u.render.toList = stemKey dir v.render.toList ↔ NameTwins dir u v := by
  unfold NameTwins RowTwin
  by_cases hu : u.row = 0 <;> by_cases hv : v.row = 0
  · simp [stemKey_render, rowText, hu, hv]
  · have hne : (0 : Nat) ≠ v.row := Ne.symm hv
    simp [stemKey_render dir u, rowText, hu, hv, hne]
  · simp [stemKey_render dir v, rowText, hu, hv, eq_comm]
  · simp only [hu, hv, false_and, or_false, stemKey_render, Prod.mk.injEq]
    constructor
    · rintro ⟨hparent, hlast⟩
      obtain ⟨hlast, hrow⟩ := append_rowText_inj hu hv hlast
      exact ⟨hrow, Prod.ext hparent hlast⟩
    · rintro ⟨hrow, hkey⟩
      rw [hkey, hrow]
      exact ⟨rfl, rfl⟩

/-! ## Accepted schedules -/

/-- Units with different schedule keys are one (case, row) only by a qualified spelling. -/
theorem sameUnit_iff (reg : CaseRegistry) {u v : UnitId} (hkey : u.scheduleKey ≠ v.scheduleKey) :
    SameUnit reg u v ↔ QualifiedTwins reg u v := by
  unfold SameUnit QualifiedTwins
  rw [sameCase_iff]
  refine and_congr_right fun hrow => or_iff_right fun hupper => hkey ?_
  unfold UnitId.scheduleKey toAsciiUppercase
  rw [hrow]
  exact congrArg (fun s => (String.ofList s, v.row)) hupper

/-- **Exactly when an accepted schedule keeps its units apart.** Under a log directory, the units of
a schedule `refuseDuplicates` accepts share no artifact and no (case, row) if and only if no two of
them are name twins or qualified twins. -/
theorem unitsApart_iff (reg : CaseRegistry) (dir workRoot : List Char) (units : List UnitId)
    (haccepted : refuseDuplicates units = .ok ()) :
    UnitsApart reg ⟨some dir, workRoot⟩ units ↔
      units.Pairwise fun u v => ¬ NameTwins dir u v ∧ ¬ QualifiedTwins reg u v := by
  have hkeys : units.Pairwise fun u v => u.scheduleKey ≠ v.scheduleKey :=
    List.pairwise_map.1 ((refuseDuplicates_ok_iff units).1 haccepted)
  have hpair : ∀ u v : UnitId, u.scheduleKey ≠ v.scheduleKey →
      (PathsApart ⟨some dir, workRoot⟩ u v ∧ ¬ SameUnit reg u v ↔
        ¬ NameTwins dir u v ∧ ¬ QualifiedTwins reg u v) := by
    intro u v hkey
    rw [pathsApart_iff, ne_eq, stemKey_render_eq_iff, sameUnit_iff reg hkey]
  unfold UnitsApart
  constructor
  · intro h
    exact (hkeys.and h).imp fun hboth => (hpair _ _ hboth.1).1 hboth.2
  · intro h
    exact (hkeys.and h).imp fun hboth => (hpair _ _ hboth.1).2 hboth.2

/-- The in-tree catalog with two ARP cases. -/
def arpRegistry : CaseRegistry where
  entries := [⟨"tc8".toList, "ARP_33".toList⟩, ⟨"tc8".toList, "ARP_35".toList⟩]
  distinct := by decide

theorem unitsApart_two_rows :
    UnitsApart arpRegistry ⟨some "/log".toList, []⟩ [⟨"ARP_33", 0⟩, ⟨"ARP_35", 0⟩, ⟨"ARP_35", 1⟩] :=
  (unitsApart_iff arpRegistry "/log".toList [] _ (by decide)).2 (by decide)

/-- Two accepted schedules that break the promise: a case beside its qualified spelling is run
twice, and a token spelled like an extra row writes that row's files. -/
theorem unitsApart_fails_on_twins :
    (refuseDuplicates [⟨"ARP_33", 0⟩, ⟨"tc8:ARP_33", 0⟩] = .ok () ∧
      ¬ UnitsApart arpRegistry ⟨some "/log".toList, []⟩ [⟨"ARP_33", 0⟩, ⟨"tc8:ARP_33", 0⟩]) ∧
    (refuseDuplicates [⟨"ARP_35#1", 0⟩, ⟨"ARP_35", 1⟩] = .ok () ∧
      ¬ UnitsApart arpRegistry ⟨some "/log".toList, []⟩ [⟨"ARP_35#1", 0⟩, ⟨"ARP_35", 1⟩]) := by
  refine ⟨⟨by decide, fun h => ?_⟩, ⟨by decide, fun h => ?_⟩⟩
  · have hsame := (List.pairwise_pair.1 h).2
    exact hsame ⟨rfl, .inl (by decide)⟩
  · have hpaths := (List.pairwise_pair.1 h).1
    exact hpaths 0 0 "/log/ARP_35#1.harness.log".toList (by decide)
      "/log/ARP_35#1.harness.log".toList (by decide) rfl

end Tc8Harness.Orchestrator
