import Tc8Harness.Orchestrator.Worker

/-!
# The execution ledger

What the workers' results add up to. `distribute_bucket` and `distribute_perm` say that every unit of
the schedule goes to exactly one bucket; `Tallied` that a worker's lists and records are read off the
units it concluded, each in one place; `runWorkers_spec` that this holds of every worker that returns,
whatever the fixture answers, and that a worker concludes a prefix of its bucket; `joinAll_joined` that a
worker that panicked is left with nothing but its error.
-/

namespace Tc8Harness.Orchestrator

/-! ## Distribution -/

/-- Dealing units with positions `l` into `buckets`. -/
theorem foldl_modify_bucket (workers : Nat) (l : List (UnitId × Nat)) (buckets : List (List UnitId))
    (b : Nat) :
    (l.foldl (fun buckets c => buckets.modify (c.2 % workers) (· ++ [c.1])) buckets)[b]? =
      buckets[b]?.map (· ++ (l.filter fun c => c.2 % workers == b).map fun c => c.1) := by
  induction l generalizing buckets with
  | nil => simp
  | cons c l ih =>
    rw [List.foldl_cons, ih, List.getElem?_modify, List.filter_cons]
    by_cases hb : c.2 % workers = b
    · simp only [hb, beq_self_eq_true, if_true, List.map_cons, Option.map_eq_map, Option.map_map]
      congr 1
      funext bucket
      simp
    · simp [hb]

theorem length_foldl_modify (workers : Nat) (l : List (UnitId × Nat))
    (buckets : List (List UnitId)) :
    (l.foldl (fun buckets c => buckets.modify (c.2 % workers) (· ++ [c.1])) buckets).length =
      buckets.length := by
  induction l generalizing buckets with
  | nil => rfl
  | cons c l ih => rw [List.foldl_cons, ih, List.length_modify]

theorem length_distribute (cases : List UnitId) (workers : Nat) :
    (distribute cases workers).length = workers := by
  unfold distribute
  rw [length_foldl_modify, List.length_replicate]

/-- **Round-robin**: bucket `b` holds the units at the positions that are `b` modulo `workers`. -/
theorem distribute_bucket (cases : List UnitId) {workers b : Nat} (hb : b < workers) :
    (distribute cases workers)[b]? =
      some ((cases.zipIdx.filter fun c => c.2 % workers == b).map fun c => c.1) := by
  unfold distribute
  rw [foldl_modify_bucket, List.getElem?_replicate_of_lt hb]
  simp

/-- Putting one unit into a bucket puts one unit into all of them. -/
theorem flatten_modify_perm (buckets : List (List UnitId)) {b : Nat} (hb : b < buckets.length)
    (u : UnitId) : (buckets.modify b (· ++ [u])).flatten.Perm (buckets.flatten ++ [u]) := by
  induction buckets generalizing b with
  | nil => exact absurd hb (Nat.not_lt_zero b)
  | cons bucket buckets ih =>
    cases b with
    | zero =>
      simp only [List.modify_zero_cons, List.flatten_cons, List.append_assoc]
      exact List.Perm.append_left bucket List.perm_append_comm
    | succ b =>
      simp only [List.modify_succ_cons, List.flatten_cons, List.append_assoc]
      exact List.Perm.append_left bucket (ih (Nat.lt_of_succ_lt_succ hb))

theorem foldl_modify_perm {workers : Nat} (hw : 1 ≤ workers) (l : List (UnitId × Nat))
    {buckets : List (List UnitId)} (hlen : buckets.length = workers) :
    (l.foldl (fun buckets c => buckets.modify (c.2 % workers) (· ++ [c.1])) buckets).flatten.Perm
      (buckets.flatten ++ l.map fun c => c.1) := by
  induction l generalizing buckets with
  | nil => simp
  | cons c l ih =>
    have hlt : c.2 % workers < buckets.length := by
      rw [hlen]
      exact Nat.mod_lt _ hw
    rw [List.foldl_cons, List.map_cons]
    refine (ih ((List.length_modify ..).trans hlen)).trans ?_
    refine ((flatten_modify_perm buckets hlt c.1).append_right _).trans ?_
    rw [List.append_assoc]
    rfl

/-- Nothing is lost or duplicated by the distribution. -/
theorem distribute_perm (cases : List UnitId) {workers : Nat} (hw : 1 ≤ workers) :
    (distribute cases workers).flatten.Perm cases := by
  have h := foldl_modify_perm hw cases.zipIdx (List.length_replicate (n := workers) (a := []))
  have hflat : (List.replicate workers ([] : List UnitId)).flatten = [] := by simp
  rw [hflat, List.nil_append, List.zipIdx_map_fst] at h
  exact h

/-! ## One worker's tally -/

/-- The one thing a concluded unit counts as. -/
inductive Conclusion where
  | pass
  | fail (reason : String)
  | skip (reason : String)
  | nonConclusion (reason : String)
  | undispatched (reason : String)
  deriving DecidableEq, Repr

def Conclusion.status : Conclusion → Status
  | .pass => .pass
  | .fail _ => .fail
  | .skip _ => .skip
  | .nonConclusion _ => .skip
  | .undispatched _ => .error

def Conclusion.message : Conclusion → String
  | .pass => ""
  | .fail reason => reason
  | .skip reason => reason
  | .nonConclusion reason => reason
  | .undispatched reason => reason

section

variable (toUppercase : Char → List Char)

/-- What a dispatched unit counts as: a negative that did not conclude is a failure. -/
def conclusionOf (c : UnitId × Outcome) : Conclusion :=
  match c.2 with
  | .ok .pass => .pass
  | .ok (.fail reason) => .fail reason
  | .ok (.skip reason) => .skip reason
  | .ok (.nonConclusion reason) =>
    if isNegativeCase toUppercase c.1.case then
      .fail ("negative did not exercise its guard, so it proves nothing: " ++ reason)
    else .nonConclusion reason
  | .error e => .undispatched ("dispatch_fault: " ++ e)

def recordOf (negative : Bool) (c : UnitId × Outcome) : CaseRecord where
  name := if negative then c.1.render ++ "_neg" else c.1.render
  status := (conclusionOf toUppercase c).status
  message := (conclusionOf toUppercase c).message
  negative := negative

/-- The entry of a concluded unit in each of the four lists, if it has one. -/
def failEntry (c : UnitId × Outcome) : Option String :=
  match conclusionOf toUppercase c with
  | .fail _ => some c.1.render
  | _ => none

def skipEntry (c : UnitId × Outcome) : Option Skip :=
  match conclusionOf toUppercase c with
  | .skip reason => some ⟨c.1.render, reason⟩
  | _ => none

def nonConclusionEntry (c : UnitId × Outcome) : Option Skip :=
  match conclusionOf toUppercase c with
  | .nonConclusion reason => some ⟨c.1.render, reason⟩
  | _ => none

def undispatchedEntry (c : UnitId × Outcome) : Option Skip :=
  match conclusionOf toUppercase c with
  | .undispatched reason => some ⟨c.1.render, reason⟩
  | _ => none

/-- A worker's result is read off the units it concluded: one record and one count for each, and each
in the list of what it counts as. -/
structure Tallied (negative : Bool) (done : List (UnitId × Outcome)) (r : WorkerResult) : Prop where
  processed : r.processed = done.length
  records : r.records = done.map (recordOf toUppercase negative)
  fails : r.fails = done.filterMap (failEntry toUppercase)
  skips : r.skips = done.filterMap (skipEntry toUppercase)
  nonconclusions : r.nonconclusions = done.filterMap (nonConclusionEntry toUppercase)
  undispatched : r.undispatched = done.filterMap (undispatchedEntry toUppercase)

variable {toUppercase} {negative : Bool} {done : List (UnitId × Outcome)} {r : WorkerResult}

/-- A result with nothing concluded, whatever its error. -/
theorem Tallied.empty (negative : Bool) (workerError : Option String) :
    Tallied toUppercase negative [] { workerError := workerError } :=
  ⟨rfl, rfl, rfl, rfl, rfl, rfl⟩

theorem Tallied.withError (h : Tallied toUppercase negative done r) (workerError : Option String) :
    Tallied toUppercase negative done { r with workerError := workerError } :=
  ⟨h.processed, h.records, h.fails, h.skips, h.nonconclusions, h.undispatched⟩

/-- What concluding a unit appends to each list. -/
theorem conclude_lists (negative : Bool) (case : UnitId) (outcome : Outcome) (r : WorkerResult) :
    (conclude toUppercase negative case outcome r).fails =
        r.fails ++ (failEntry toUppercase (case, outcome)).toList ∧
      (conclude toUppercase negative case outcome r).skips =
        r.skips ++ (skipEntry toUppercase (case, outcome)).toList ∧
      (conclude toUppercase negative case outcome r).nonconclusions =
        r.nonconclusions ++ (nonConclusionEntry toUppercase (case, outcome)).toList ∧
      (conclude toUppercase negative case outcome r).undispatched =
        r.undispatched ++ (undispatchedEntry toUppercase (case, outcome)).toList ∧
      (conclude toUppercase negative case outcome r).records =
        r.records ++ [recordOf toUppercase negative (case, outcome)] := by
  rcases outcome with e | verdict
  · refine ⟨?_, ?_, ?_, ?_, ?_⟩ <;> first | rfl | exact (List.append_nil _).symm
  · cases verdict with
    | nonConclusion reason =>
      unfold conclude failEntry skipEntry nonConclusionEntry undispatchedEntry recordOf conclusionOf
      dsimp only
      split
      · refine ⟨?_, ?_, ?_, ?_, ?_⟩ <;> first | rfl | exact (List.append_nil _).symm
      · refine ⟨?_, ?_, ?_, ?_, ?_⟩ <;> first | rfl | exact (List.append_nil _).symm
    | _ => refine ⟨?_, ?_, ?_, ?_, ?_⟩ <;> first | rfl | exact (List.append_nil _).symm

theorem conclude_processed (negative : Bool) (case : UnitId) (outcome : Outcome) (r : WorkerResult) :
    (conclude toUppercase negative case outcome r).processed = r.processed + 1 := by
  rcases outcome with e | verdict
  · rfl
  · cases verdict with
    | nonConclusion reason =>
      unfold conclude
      dsimp only
      split <;> rfl
    | _ => rfl

/-- **Step lemma**: concluding a unit keeps the tally. -/
theorem Tallied.conclude (h : Tallied toUppercase negative done r) (case : UnitId)
    (outcome : Outcome) : Tallied toUppercase negative (done ++ [(case, outcome)])
      (conclude toUppercase negative case outcome r) := by
  obtain ⟨hfails, hskips, hnon, hundis, hrecords⟩ :=
    @conclude_lists toUppercase negative case outcome r
  have hpush : ∀ {α : Type} (f : UnitId × Outcome → Option α),
      (done ++ [(case, outcome)]).filterMap f = done.filterMap f ++ (f (case, outcome)).toList := by
    intro α f
    rw [List.filterMap_append]
    cases hf : f (case, outcome) <;> simp [hf]
  constructor
  · rw [conclude_processed, h.processed, List.length_append]
    rfl
  · rw [hrecords, h.records, List.map_append]
    rfl
  · rw [hfails, hpush, h.fails]
  · rw [hskips, hpush, h.skips]
  · rw [hnon, hpush, h.nonconclusions]
  · rw [hundis, hpush, h.undispatched]

/-! ## Every worker -/

/-- What a worker leaves: it concluded a prefix of its bucket, and a result is a tally of that. -/
structure WorkerSpec (toUppercase : Char → List Char) (negative : Bool) (bucket : List UnitId)
    (run : WorkerRun) : Prop where
  prefixOf : (run.concluded.map fun c => c.1) <+: bucket
  tallied : ∀ r, run.ended = .returned r → Tallied toUppercase negative run.concluded r

section

variable {Ctx : Type} {fx : Fixture Ctx} {w : Nat} {dutFirst : Bool} {neg : Option AssertSchedule}

/-- **Run lemma** for the loop over a bucket: what it concludes is a prefix of the bucket, and what it
returns is a tally. -/
theorem runBucket_spec {ctx : Ctx} {i : Nat} {bucket : List UnitId}
    (htallied : Tallied toUppercase (isNegativeRun neg) done r) :
    (∃ more, (more.map fun c => c.1) <+: bucket ∧
        (runBucket toUppercase fx w dutFirst neg ctx i bucket done r).1 = done ++ more) ∧
      ∀ r', (runBucket toUppercase fx w dutFirst neg ctx i bucket done r).2 = some r' →
        Tallied toUppercase (isNegativeRun neg)
          (runBucket toUppercase fx w dutFirst neg ctx i bucket done r).1 r' := by
  have hnone : ∀ bucket : List UnitId, ∃ more : List (UnitId × Outcome),
      (more.map fun c => c.1) <+: bucket ∧ done = done ++ more :=
    fun _ => ⟨[], List.nil_prefix, (List.append_nil _).symm⟩
  induction bucket generalizing i done r with
  | nil =>
    refine ⟨hnone [], fun r' hr' => ?_⟩
    cases hr'
    exact htallied
  | cons case rest ih =>
    unfold runBucket
    split
    · exact ⟨hnone _, fun r' hr' => by cases hr'⟩
    · refine ⟨hnone _, fun r' hr' => ?_⟩
      cases hr'
      exact htallied.withError _
    · split
      · exact ⟨hnone _, fun r' hr' => by cases hr'⟩
      · split
        · exact ⟨hnone _, fun r' hr' => by cases hr'⟩
        · rename_i outcome _
          obtain ⟨⟨more, hmore, hdone⟩, hreturned⟩ := ih (i := i + 1) (htallied.conclude case outcome)
            fun _ => ⟨[], List.nil_prefix, (List.append_nil _).symm⟩
          refine ⟨⟨(case, outcome) :: more, List.cons_prefix_cons.2 ⟨rfl, hmore⟩, ?_⟩, hreturned⟩
          rw [hdone, List.append_assoc]
          rfl

/-- The result of a worker that returned is that of its body. -/
theorem guarded_returned {result : Option WorkerResult} {teardown : Option (Except String Unit)}
    (h : guarded result teardown = .returned r) : result = some r := by
  cases result with
  | none => cases teardown <;> cases h
  | some r' =>
    cases teardown with
    | none => cases h
    | some answer =>
      cases h
      rfl

theorem runWorker_spec (bucket : List UnitId) : WorkerSpec toUppercase (isNegativeRun neg) bucket
    (runWorker toUppercase fx w bucket dutFirst neg) := by
  have hbody : ((workerBody toUppercase fx w bucket dutFirst neg).1.map fun c => c.1) <+: bucket ∧
      ∀ r, (workerBody toUppercase fx w bucket dutFirst neg).2 = some r →
        Tallied toUppercase (isNegativeRun neg) (workerBody toUppercase fx w bucket dutFirst neg).1 r := by
    unfold workerBody
    split
    · exact ⟨List.nil_prefix, fun r hr => by cases hr⟩
    · refine ⟨List.nil_prefix, fun r hr => ?_⟩
      cases hr
      exact .empty _ _
    · rename_i ctx _
      have hspec : _ ∧ ∀ r', (runBucket toUppercase fx w dutFirst neg ctx 0 bucket [] {}).2 = some r' → _ :=
        runBucket_spec (Tallied.empty _ none)
      obtain ⟨⟨more, hmore, hdone⟩, hreturned⟩ := hspec
      refine ⟨?_, hreturned⟩
      rw [hdone]
      exact hmore
  exact ⟨hbody.1, fun r hr => hbody.2 r (guarded_returned hr)⟩

/-- **What every worker leaves**, whatever the fixture answers and wherever it panics. -/
theorem runWorkers_spec (buckets : List (List UnitId)) :
    List.Forall₂ (WorkerSpec toUppercase (isNegativeRun neg)) buckets
      (runWorkers toUppercase fx buckets dutFirst neg) := by
  have hfrom : ∀ (buckets : List (List UnitId)) (k : Nat),
      List.Forall₂ (WorkerSpec toUppercase (isNegativeRun neg)) buckets
        ((buckets.zipIdx k).map fun b => runWorker toUppercase fx b.2 b.1 dutFirst neg) := by
    intro buckets
    induction buckets with
    | nil => exact fun _ => .nil
    | cons bucket buckets ih =>
      intro k
      exact .cons (runWorker_spec bucket) (ih (k + 1))
  exact hfrom buckets 0

end

/-! ## The joins -/

/-- What the caller gets of a worker: the tally of one that returned, an error of one that panicked. -/
def Joined (toUppercase : Char → List Char) (negative : Bool) (run : WorkerRun) (r : WorkerResult) :
    Prop :=
  (run.ended = .returned r ∧ Tallied toUppercase negative run.concluded r) ∨
    (run.ended = .panicked ∧ ∃ text, r = { workerError := some text })

theorem join_joined {bucket : List UnitId} {run : WorkerRun} {w : Nat}
    (hspec : WorkerSpec toUppercase negative bucket run) (h : join w run.ended = some r) :
    Joined toUppercase negative run r := by
  cases hended : run.ended with
  | returned r' =>
    rw [hended] at h
    cases h
    exact .inl ⟨hended, hspec.tallied _ hended⟩
  | panicked =>
    rw [hended] at h
    cases h
    exact .inr ⟨hended, _, rfl⟩
  | aborted =>
    rw [hended] at h
    cases h

variable {buckets : List (List UnitId)} {runs : List WorkerRun} {results : List WorkerResult}

/-- **Run lemma** for the joins. -/
theorem joinAll_joined (hspec : List.Forall₂ (WorkerSpec toUppercase negative) buckets runs)
    (h : joinAll runs = some results) : List.Forall₂ (Joined toUppercase negative) runs results := by
  unfold joinAll at h
  generalize 0 = k at h
  induction hspec generalizing k results with
  | nil =>
    rw [List.zipIdx_nil, List.mapM_nil] at h
    cases h
    exact .nil
  | cons hhead _ ih =>
    rw [List.zipIdx_cons, List.mapM_cons] at h
    obtain ⟨r, hjoin, h⟩ := Option.bind_eq_some_iff.mp h
    obtain ⟨rest, hrest, h⟩ := Option.bind_eq_some_iff.mp h
    cases h
    exact .cons (join_joined hhead hjoin) (ih _ hrest)

theorem join_eq_none_iff (w : Nat) {ended : Ended} : join w ended = none ↔ ended = .aborted := by
  cases ended <;> simp [join]

/-- There is nothing to join exactly where a worker's panic met a panic of its teardown. -/
theorem joinAll_eq_none_iff : joinAll runs = none ↔ ∃ run ∈ runs, run.ended = .aborted := by
  unfold joinAll
  generalize 0 = k
  induction runs generalizing k with
  | nil => simp
  | cons run runs ih =>
    rw [List.zipIdx_cons, List.mapM_cons, List.exists_mem_cons_iff, ← ih (k + 1), ← join_eq_none_iff k]
    cases join k run.ended with
    | none => simp
    | some r => cases List.mapM (fun r => join r.2 r.1.ended) (runs.zipIdx (k + 1)) <;> simp

/-! ## The workers together -/

/-- Everything concluded, worker by worker. -/
def concludedBy (runs : List WorkerRun) : List (UnitId × Outcome) := runs.flatMap fun run => run.concluded

/-- What the results account for of a worker: nothing where it did not return. -/
def WorkerRun.accounted (run : WorkerRun) : List (UnitId × Outcome) :=
  match run.ended with
  | .returned _ => run.concluded
  | .panicked => []
  | .aborted => []

def accountedBy (runs : List WorkerRun) : List (UnitId × Outcome) := runs.flatMap fun run => run.accounted

theorem Joined.accounted {run : WorkerRun} (h : Joined toUppercase negative run r) :
    Tallied toUppercase negative run.accounted r := by
  unfold WorkerRun.accounted
  rcases h with ⟨hended, htallied⟩ | ⟨hended, text, rfl⟩
  · rw [hended]
    exact htallied
  · rw [hended]
    exact .empty _ _

theorem accounted_isPrefix {bucket : List UnitId} {run : WorkerRun}
    (h : WorkerSpec toUppercase negative bucket run) : (run.accounted.map fun c => c.1) <+: bucket := by
  unfold WorkerRun.accounted
  split
  · exact h.prefixOf
  · exact List.nil_prefix
  · exact List.nil_prefix

theorem length_accountedBy_le (h : List.Forall₂ (WorkerSpec toUppercase negative) buckets runs) :
    (accountedBy runs).length ≤ buckets.flatten.length := by
  induction h with
  | nil => exact Nat.le_refl _
  | cons hspec _ ih =>
    have hlen := (accounted_isPrefix hspec).length_le
    rw [List.length_map] at hlen
    simp only [accountedBy, List.flatMap_cons, List.flatten_cons, List.length_append] at ih ⊢
    omega

/-- Every worker that was dealt a unit returned. -/
def AllReturned (buckets : List (List UnitId)) (runs : List WorkerRun) : Prop :=
  List.Forall₂ (fun bucket run => bucket ≠ [] → ∃ r, run.ended = .returned r) buckets runs

/-- Where every worker with units returned, nothing that was concluded is lost. -/
theorem accountedBy_eq (h : List.Forall₂ (WorkerSpec toUppercase negative) buckets runs)
    (hreturned : AllReturned buckets runs) : accountedBy runs = concludedBy runs := by
  induction h with
  | nil => rfl
  | @cons bucket run buckets runs hspec hrest ih =>
    obtain ⟨hhead, htail⟩ := List.forall₂_cons.mp hreturned
    have heq : run.accounted = run.concluded := by
      by_cases hbucket : bucket = []
      · have hprefix := hspec.prefixOf
        rw [hbucket, List.prefix_nil, List.map_eq_nil_iff] at hprefix
        rw [WorkerRun.accounted, hprefix]
        split <;> rfl
      · obtain ⟨r, hended⟩ := hhead hbucket
        rw [WorkerRun.accounted, hended]
    change run.accounted ++ accountedBy runs = run.concluded ++ concludedBy runs
    rw [heq, ih htail]

/-- If as many units are accounted for as were dealt out, they are the units dealt out, and no worker
with units panicked. -/
theorem accountedBy_of_length (h : List.Forall₂ (WorkerSpec toUppercase negative) buckets runs)
    (hlen : (accountedBy runs).length = buckets.flatten.length) :
    ((accountedBy runs).map fun c => c.1) = buckets.flatten ∧ AllReturned buckets runs := by
  induction h with
  | nil => exact ⟨rfl, .nil⟩
  | @cons bucket run buckets runs hspec hrest ih =>
    have hhead := (accounted_isPrefix hspec).length_le
    have htail := length_accountedBy_le hrest
    rw [List.length_map] at hhead
    simp only [accountedBy, List.flatMap_cons, List.flatten_cons, List.length_append] at ih hlen htail ⊢
    have hbucket : (run.accounted.map fun c => c.1) = bucket :=
      (accounted_isPrefix hspec).eq_of_length (by rw [List.length_map]; omega)
    obtain ⟨hrest', hreturned⟩ := ih (by omega)
    refine ⟨by rw [List.map_append, hbucket, hrest'], .cons (fun hunits => ?_) hreturned⟩
    -- a worker that did not return accounts for nothing, and its bucket has a unit
    rw [← hbucket, WorkerRun.accounted] at hunits
    cases hended : run.ended with
    | returned r => exact ⟨r, rfl⟩
    | panicked =>
      rw [hended] at hunits
      exact absurd rfl hunits
    | aborted =>
      rw [hended] at hunits
      exact absurd rfl hunits

end

end Tc8Harness.Orchestrator
