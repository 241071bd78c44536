import Mathlib.Data.List.Infix
import Mathlib.Tactic.Basic

/-!
# Unix paths as text

A path is a list of characters. `components` is what path equality looks at: a root, a leading
current-directory mark, and the names between slashes, where empty names and later `.` names do not
count. Two paths that end in a name are equal exactly when their parents and their last names are
(`components_eq_iff`), and text without a slash put behind a path changes its last name only
(`parent_append`, `lastName_append`).
-/

namespace Tc8Harness.UnixPath

/-- The texts between the slashes of a path. -/
def segments (p : List Char) : List (List Char) := p.splitOn '/'

/-- Joining `p` onto `dir`: an absolute `p` replaces it, any other is put behind a slash. -/
def join (dir p : List Char) : List Char :=
  if p.head? = some '/' then p
  else if dir = [] ∨ dir.getLast? = some '/' then dir ++ p
  else dir ++ '/' :: p

/-- A segment that stands for a component of its own. -/
def isName (s : List Char) : Bool := s ≠ [] ∧ s ≠ ['.']

structure Components where
  rooted : Bool
  curDir : Bool
  names : List (List Char)
  deriving DecidableEq, Repr

/-- The components path equality compares. -/
def components (p : List Char) : Components where
  rooted := p.head? = some '/'
  curDir := (segments p).head? = some ['.']
  names := (segments p).filter isName

/-- The segment behind the last slash. -/
def lastName (p : List Char) : List Char := (segments p).getLastD []

/-- What stands before the last slash, as components. -/
def parent (p : List Char) : Components where
  rooted := p.head? = some '/'
  curDir := (segments p).dropLast.head? = some ['.']
  names := (segments p).dropLast.filter isName

theorem exists_last_slash {p : List Char} (hp : '/' ∈ p) :
    ∃ a b, p = a ++ '/' :: b ∧ '/' ∉ b := by
  obtain ⟨b, a, heq, hb⟩ := List.eq_append_cons_of_mem (List.mem_reverse.2 hp)
  refine ⟨a.reverse, b.reverse, ?_, mt List.mem_reverse.1 hb⟩
  rw [← List.reverse_reverse p, heq]
  simp

theorem segments_of_last_slash (a : List Char) {b : List Char} (hb : '/' ∉ b) :
    segments (a ++ '/' :: b) = segments a ++ [b] := by
  unfold segments
  rw [List.splitOn_append_cons_self, List.splitOn_eq_singleton hb]

theorem head?_append_eq_slash (p : List Char) {s : List Char} (hs : '/' ∉ s) :
    (p ++ s).head? = some '/' ↔ p.head? = some '/' := by
  cases p with
  | nil =>
    refine iff_of_false (fun h => hs ?_) (by simp)
    exact List.mem_of_mem_head? h
  | cons c cs => rfl

/-- Text without a slash lands in the last segment. -/
theorem segments_append (p : List Char) {s : List Char} (hs : '/' ∉ s) :
    segments (p ++ s) = (segments p).dropLast ++ [lastName p ++ s] := by
  unfold lastName
  by_cases hp : '/' ∈ p
  · obtain ⟨a, b, rfl, hb⟩ := exists_last_slash hp
    have hbs : '/' ∉ b ++ s := by simp [hb, hs]
    rw [List.append_assoc, List.cons_append, segments_of_last_slash a hbs,
      segments_of_last_slash a hb]
    simp
  · have hps : '/' ∉ p ++ s := by simp [hp, hs]
    unfold segments
    rw [List.splitOn_eq_singleton hps, List.splitOn_eq_singleton hp]
    simp

theorem parent_append (p : List Char) {s : List Char} (hs : '/' ∉ s) :
    parent (p ++ s) = parent p := by
  unfold parent
  simp only [segments_append p hs, List.dropLast_concat, head?_append_eq_slash p hs]

theorem lastName_append (p : List Char) {s : List Char} (hs : '/' ∉ s) :
    lastName (p ++ s) = lastName p ++ s := by
  rw [lastName, segments_append p hs]
  simp

/-- A path is its parent and its last name, once that name is a component of its own. -/
theorem components_eq {p : List Char} (hp : isName (lastName p) = true) :
    components p =
      { parent p with names := (parent p).names ++ [lastName p] } := by
  have hseg : segments p = (segments p).dropLast ++ [lastName p] := by
    simpa using segments_append p (s := []) (by simp)
  have hcur : ((segments p).dropLast ++ [lastName p]).head? = some ['.'] ↔
      (segments p).dropLast.head? = some ['.'] := by
    cases (segments p).dropLast with
    | nil =>
      have : lastName p ≠ ['.'] := fun h => by simp [isName, h] at hp
      simp [this]
    | cons s ss => simp
  unfold components parent
  conv_lhs => rw [hseg]
  simp only [List.filter_append, List.filter_cons, hp, if_true, List.filter_nil, hcur]

/-- Two paths that end in names are equal exactly when their parents and these names are. -/
theorem components_eq_iff {p q : List Char} (hp : isName (lastName p) = true)
    (hq : isName (lastName q) = true) :
    components p = components q ↔ parent p = parent q ∧ lastName p = lastName q := by
  rw [components_eq hp, components_eq hq]
  constructor
  · intro h
    injection h with hroot hcur hnames
    have hlast := List.append_inj' hnames rfl
    refine ⟨?_, by simpa using hlast.2⟩
    cases hparent : parent p
    cases hparent' : parent q
    simp_all
  · rintro ⟨hparent, hlast⟩
    rw [hparent, hlast]

/-- Joining looks at the first character only, so text behind a path stays behind the result. -/
theorem join_append (dir p : List Char) {s : List Char} (hs : '/' ∉ s) :
    join dir (p ++ s) = join dir p ++ s := by
  unfold join
  simp only [head?_append_eq_slash p hs]
  split
  · rfl
  · split <;> simp

end Tc8Harness.UnixPath
