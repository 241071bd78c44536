import Mathlib

/-!
# Schedulable units

`dut/env/orchestrator/src/unit.rs`: a unit is a case token and one of the case's authored negative
rows. The schedule, the report and every artifact name go by the rendered unit; `refuseDuplicates`
compares units by the upper-cased token and the row.
-/

namespace Tc8Harness.Orchestrator

structure UnitId where
  case : String
  row : Nat
  deriving DecidableEq, Repr

/-- The unit's run-unique name: the bare case for row 0, `CASE#N` for an extra row. -/
def UnitId.render (u : UnitId) : String :=
  if u.row = 0 then u.case else u.case ++ "#" ++ toString u.row

/-- Rust's `to_ascii_uppercase`. -/
def toAsciiUppercase (s : String) : String :=
  String.ofList (s.toList.map Char.toUpper)

/-- The key `refuse_duplicates` compares units by. -/
def UnitId.scheduleKey (u : UnitId) : String × Nat :=
  (toAsciiUppercase u.case, u.row)

def duplicateText (first unit : UnitId) : String :=
  "the schedule holds " ++ first.render ++ " and " ++ unit.render ++ ", which are the same unit: " ++
    "each run's logs, pcap and verdict are named from its unit, so the two would overwrite each " ++
    "other. Name each case once; to repeat a case, run the orchestrator again"

/-- The loop of `refuse_duplicates`: `seen` maps each key met so far to the unit it came from. -/
def refuseDuplicatesFrom (seen : List ((String × Nat) × UnitId)) : List UnitId → Except String Unit
  | [] => .ok ()
  | unit :: rest =>
    match seen.lookup unit.scheduleKey with
    | some first => .error (duplicateText first unit)
    | none => refuseDuplicatesFrom ((unit.scheduleKey, unit) :: seen) rest

def refuseDuplicates (units : List UnitId) : Except String Unit := refuseDuplicatesFrom [] units

/-- A schedule is accepted exactly when no key occurs twice. -/
theorem refuseDuplicatesFrom_ok_iff (seen : List ((String × Nat) × UnitId)) (units : List UnitId) :
    refuseDuplicatesFrom seen units = .ok () ↔
      (units.map UnitId.scheduleKey).Nodup ∧
        ∀ u ∈ units, seen.lookup u.scheduleKey = none := by
  induction units generalizing seen with
  | nil => simp [refuseDuplicatesFrom]
  | cons unit rest ih =>
    unfold refuseDuplicatesFrom
    cases hseen : seen.lookup unit.scheduleKey with
    | some first =>
      refine iff_of_false (fun h => by cases h) fun h => ?_
      rw [h.2 unit List.mem_cons_self] at hseen
      cases hseen
    | none =>
      dsimp only
      rw [ih, List.map_cons, List.nodup_cons]
      constructor
      · rintro ⟨hnodup, hrest⟩
        have hkeys : ∀ u ∈ rest, u.scheduleKey ≠ unit.scheduleKey := by
          intro u hu heq
          have := hrest u hu
          simp [List.lookup, heq] at this
        refine ⟨⟨fun hin => ?_, hnodup⟩, ?_⟩
        · obtain ⟨u, hu, heq⟩ := List.mem_map.1 hin
          exact hkeys u hu heq
        · intro u hu
          rcases List.mem_cons.1 hu with rfl | hu
          · exact hseen
          · have := hrest u hu
            rwa [List.lookup_cons, beq_eq_false_iff_ne.2 (hkeys u hu)] at this
      · rintro ⟨⟨hnotin, hnodup⟩, hall⟩
        refine ⟨hnodup, fun u hu => ?_⟩
        have hne : u.scheduleKey ≠ unit.scheduleKey := fun heq =>
          hnotin (heq ▸ List.mem_map_of_mem hu)
        rw [List.lookup_cons, beq_eq_false_iff_ne.2 hne]
        exact hall u (List.mem_cons_of_mem _ hu)

theorem refuseDuplicates_ok_iff (units : List UnitId) :
    refuseDuplicates units = .ok () ↔ (units.map UnitId.scheduleKey).Nodup := by
  unfold refuseDuplicates
  rw [refuseDuplicatesFrom_ok_iff]
  exact and_iff_left fun _ _ => rfl

end Tc8Harness.Orchestrator
