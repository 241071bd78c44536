import Tc8Harness.Testability.ReactorTimers

/-!
# Which watch handlers a turn of the reactor runs

The poll sets hold a descriptor once for each watch that names it, and every descriptor reported ready
puts all its watches into the fire list. A watch is therefore run as often as there are watches of its
kind on its descriptor, unless a handler removes it first.
-/

namespace Tc8Harness.Testability.Loop

variable {α σ : Type}

/-! ## The fire list -/

/-- A watch whose descriptor the multiplexer reports and the loop does not take for the waker's. -/
def served (l : Loop α σ) (ready : Ready) (w : Watch α) : Bool :=
  0 ≤ w.fd && if w.onWrite then ready.writable w.fd else ready.readable w.fd && l.waker != some w.fd

/-- The watches of one kind that are served, in the order of their handles. -/
def servedWatches (l : Loop α σ) (ready : Ready) (onWrite : Bool) : List (Nat × Watch α) :=
  l.reactor.watches.toList.filter fun kv => kv.2.onWrite == onWrite && l.served ready kv.2

theorem mem_servedWatches {l : Loop α σ} {ready : Ready} {onWrite : Bool} {i : Nat} {w : Watch α} :
    (i, w) ∈ l.servedWatches ready onWrite ↔
      l.reactor.watches[i]? = some w ∧ w.onWrite = onWrite ∧ l.served ready w = true := by
  simp only [servedWatches, List.mem_filter, Std.TreeMap.mem_toList_iff_getElem?_eq_some,
    Bool.and_eq_true, beq_iff_eq]

theorem servedWatches_nodup (l : Loop α σ) (ready : Ready) (onWrite : Bool) :
    (l.servedWatches ready onWrite).Nodup := by
  refine List.Nodup.filter _ ?_
  refine (Std.TreeMap.distinct_keys_toList (t := l.reactor.watches)).imp ?_
  rintro a b hne rfl
  exact hne Std.ReflCmp.compare_self

theorem mem_watchersOf {l : Loop α σ} {onWrite : Bool} {fd : Int} {i : Nat} :
    i ∈ l.watchersOf onWrite fd ↔
      ∃ w, l.reactor.watches[i]? = some w ∧ w.fd = fd ∧ w.onWrite = onWrite := by
  simp only [watchersOf, List.mem_map, List.mem_filter, Prod.exists,
    Std.TreeMap.mem_toList_iff_getElem?_eq_some, Bool.and_eq_true, beq_iff_eq]
  constructor
  · rintro ⟨id, w, h, rfl⟩
    exact ⟨w, h⟩
  · rintro ⟨w, h⟩
    exact ⟨i, w, h, rfl⟩

theorem watchersOf_nodup (l : Loop α σ) (onWrite : Bool) (fd : Int) :
    (l.watchersOf onWrite fd).Nodup := by
  unfold watchersOf List.Nodup
  rw [List.pairwise_map]
  refine List.Pairwise.filter _ ?_
  refine (Std.TreeMap.distinct_keys_toList (t := l.reactor.watches)).imp ?_
  intro a b hne heq
  exact hne (heq ▸ Std.ReflCmp.compare_self)

/-- The fire list goes through the served watches of each kind, and for each through all the watches
on its descriptor. -/
theorem fireIds_eq (l : Loop α σ) (ready : Ready) :
    l.fireIds ready =
      (l.servedWatches ready false).flatMap (fun kv => l.watchersOf false kv.2.fd) ++
        (l.servedWatches ready true).flatMap (fun kv => l.watchersOf true kv.2.fd) := by
  have hwaker : (l.waker.toList.filter fun fd => decide (0 ≤ fd) && ready.readable fd).filter
      (fun fd => l.waker != some fd) = [] := by
    cases l.waker with
    | none => rfl
    | some fd =>
      rw [List.filter_eq_nil_iff]
      intro fd' hfd'
      have : fd' = fd := by simpa using (List.mem_filter.mp hfd').1
      simp [this]
  have hread : (poll ready.readable l.pollFds).filter (fun fd => l.waker != some fd) =
      (l.servedWatches ready false).map fun kv => kv.2.fd := by
    unfold poll pollFds watchedFds servedWatches
    rw [List.filter_append, List.filter_append, hwaker, List.nil_append, List.filter_map,
      List.filter_map, List.filter_filter, List.filter_filter]
    congr 1
    refine List.filter_congr fun kv _ => ?_
    cases hkind : kv.2.onWrite <;> simp [served, hkind, Bool.and_comm, Bool.and_left_comm]
  have hwrite : poll ready.writable l.pollWriteFds =
      (l.servedWatches ready true).map fun kv => kv.2.fd := by
    unfold poll pollWriteFds watchedFds servedWatches
    rw [List.filter_map, List.filter_filter]
    congr 1
    refine List.filter_congr fun kv _ => ?_
    cases hkind : kv.2.onWrite <;> simp [served, hkind]
  unfold fireIds
  rw [hread, hwrite, List.flatMap_map, List.flatMap_map]

/-- No two watches of one kind are served on one descriptor. -/
def Unshared (l : Loop α σ) (ready : Ready) : Prop :=
  ∀ (i j : Nat) (w v : Watch α), l.reactor.watches[i]? = some w → l.reactor.watches[j]? = some v →
    w.onWrite = v.onWrite → w.fd = v.fd → l.served ready w = true → i = j

theorem served_congr {l : Loop α σ} {ready : Ready} {w v : Watch α} (hkind : w.onWrite = v.onWrite)
    (hfd : w.fd = v.fd) : l.served ready w = l.served ready v := by
  rw [served, served, hkind, hfd]

/-- The part of the fire list that one of the poll sets gives. -/
theorem nodup_flatMap_served {l : Loop α σ} {ready : Ready} {onWrite : Bool} :
    ((l.servedWatches ready onWrite).flatMap fun kv => l.watchersOf onWrite kv.2.fd).Nodup ↔
      ∀ (i j : Nat) (w v : Watch α), (i, w) ∈ l.servedWatches ready onWrite →
        (j, v) ∈ l.servedWatches ready onWrite → w.fd = v.fd → i = j := by
  rw [List.nodup_flatMap]
  constructor
  · rintro ⟨-, hdisjoint⟩ i j w v hi hj hfd
    by_contra hne
    -- both bring the first of the two watches into the list
    have : Std.Symm (Function.onFun List.Disjoint fun kv : Nat × Watch α =>
        l.watchersOf onWrite kv.2.fd) := ⟨fun _ _ hsep => hsep.symm⟩
    have hsep := hdisjoint.forall hi hj (fun heq => hne (Prod.mk.inj heq).1)
    obtain ⟨hwatch, hkind, -⟩ := mem_servedWatches.mp hi
    exact hsep (mem_watchersOf.mpr ⟨w, hwatch, rfl, hkind⟩)
      (mem_watchersOf.mpr ⟨w, hwatch, hfd, hkind⟩)
  · intro hone
    refine ⟨fun kv _ => watchersOf_nodup l onWrite kv.2.fd, ?_⟩
    refine (servedWatches_nodup l ready onWrite).pairwise_of_forall_ne ?_
    rintro ⟨i, w⟩ hi ⟨j, v⟩ hj hne k hk hk'
    obtain ⟨u, hu, hfd, -⟩ := mem_watchersOf.mp hk
    obtain ⟨u', hu', hfd', -⟩ := mem_watchersOf.mp hk'
    rw [hu] at hu'
    obtain rfl := Option.some.inj hu'
    obtain rfl := hone i j w v hi hj (hfd.symm.trans hfd')
    have hwv := (mem_servedWatches.mp hi).1.symm.trans (mem_servedWatches.mp hj).1
    exact hne (by rw [Option.some.inj hwv])

/-- The fire list names no watch twice exactly when no two served watches of one kind share their
descriptor. -/
theorem fireIds_nodup_iff (l : Loop α σ) (ready : Ready) :
    (l.fireIds ready).Nodup ↔ l.Unshared ready := by
  rw [fireIds_eq, List.nodup_append, nodup_flatMap_served, nodup_flatMap_served]
  constructor
  · rintro ⟨hread, hwrite, -⟩ i j w v hi hj hkind hfd hserved
    have hserved' : l.served ready v = true := served_congr hkind hfd ▸ hserved
    cases hw : w.onWrite with
    | false =>
      exact hread i j w v (mem_servedWatches.mpr ⟨hi, hw, hserved⟩)
        (mem_servedWatches.mpr ⟨hj, hkind ▸ hw, hserved'⟩) hfd
    | true =>
      exact hwrite i j w v (mem_servedWatches.mpr ⟨hi, hw, hserved⟩)
        (mem_servedWatches.mpr ⟨hj, hkind ▸ hw, hserved'⟩) hfd
  · intro hone
    have hside : ∀ (onWrite : Bool) (i j : Nat) (w v : Watch α),
        (i, w) ∈ l.servedWatches ready onWrite → (j, v) ∈ l.servedWatches ready onWrite →
        w.fd = v.fd → i = j := by
      intro onWrite i j w v hi hj hfd
      obtain ⟨hi, hw, hserved⟩ := mem_servedWatches.mp hi
      obtain ⟨hj, hv, -⟩ := mem_servedWatches.mp hj
      exact hone i j w v hi hj (hw.trans hv.symm) hfd hserved
    refine ⟨hside false, hside true, ?_⟩
    -- a watch is of one kind
    rintro i hi j hj rfl
    obtain ⟨_, -, hi⟩ := List.mem_flatMap.mp hi
    obtain ⟨_, -, hj⟩ := List.mem_flatMap.mp hj
    obtain ⟨w, hw, -, hkind⟩ := mem_watchersOf.mp hi
    obtain ⟨v, hv, -, hkind'⟩ := mem_watchersOf.mp hj
    rw [hw] at hv
    obtain rfl := Option.some.inj hv
    rw [hkind] at hkind'
    nomatch hkind'

theorem registered_of_mem_fireIds {l : Loop α σ} {ready : Ready} {i : Nat}
    (h : i ∈ l.fireIds ready) : ∃ w, l.reactor.watches[i]? = some w := by
  rw [fireIds_eq, List.mem_append, List.mem_flatMap, List.mem_flatMap] at h
  rcases h with ⟨_, -, h⟩ | ⟨_, -, h⟩ <;>
  · obtain ⟨w, hw, -⟩ := mem_watchersOf.mp h
    exact ⟨w, hw⟩

/-! ## The dispatch -/

/-- How often the events say that a watch was run. -/
def runs (i : Nat) (es : List (LoopEvent α)) : Nat := es.countP fun ev => ev.watchId == some i

theorem runs_append (i : Nat) (es es' : List (LoopEvent α)) :
    runs i (es ++ es') = runs i es + runs i es' :=
  List.countP_append

theorem runs_eq_zero {i : Nat} {es : List (LoopEvent α)} (h : ∀ ev ∈ es, ev.watchId = none) :
    runs i es = 0 := by
  refine List.countP_eq_zero.mpr ?_
  intro ev hev
  simp [h ev hev]

/-- Every handler the dispatch runs is that of a watch of the list, registered at that moment, and it
is run at most as often as the list names the watch. -/
theorem dispatch_events (handlers : α → Task α σ) (l : Loop α σ) (ids : List Nat) :
    ∃ es, (dispatch handlers l ids).log = l.log ++ es ∧
      (∀ i, runs i es ≤ ids.count i) ∧
      ∀ id fn r, .watch id fn r ∈ es → id ∈ ids ∧ r.watches[id]?.map Watch.fn = some fn := by
  induction ids generalizing l with
  | nil => exact ⟨[], by simp [dispatch], by simp [runs], by simp⟩
  | cons id ids ih =>
    unfold dispatch
    split
    · obtain ⟨es, hes, hcount, hwatch⟩ := ih l
      refine ⟨es, hes, fun i => (hcount i).trans (List.count_le_count_cons ..), ?_⟩
      intro id' fn r h
      exact ⟨List.mem_cons_of_mem _ (hwatch id' fn r h).1, (hwatch id' fn r h).2⟩
    · next w hw =>
      obtain ⟨run, hrun, hkind⟩ :=
        log_perform { l with log := l.log ++ [.watch id w.fn l.reactor] } (handlers w.fn)
      obtain ⟨rest, hrest, hcount, hwatch⟩ := ih
        (perform { l with log := l.log ++ [.watch id w.fn l.reactor] } (handlers w.fn))
      refine ⟨.watch id w.fn l.reactor :: (run ++ rest), ?_, ?_, ?_⟩
      · rw [hrest, hrun]
        simp
      · intro i
        have hhead : runs i [.watch id w.fn l.reactor] = [id].count i := by
          simp [runs, LoopEvent.watchId, List.countP_singleton, List.count_singleton]
        have hquiet : runs i run = 0 := runs_eq_zero fun ev hev => (hkind ev hev).2
        have hrest := hcount i
        rw [← List.singleton_append, runs_append, runs_append, ← List.singleton_append (x := id),
          List.count_append]
        omega
      · intro id' fn r h
        rcases List.mem_cons.mp h with hev | h
        · obtain ⟨rfl, rfl, rfl⟩ := LoopEvent.watch.inj hev
          exact ⟨List.mem_cons_self, by rw [hw]; rfl⟩
        · rcases List.mem_append.mp h with h | h
          · cases (hkind _ h).2
          · exact ⟨List.mem_cons_of_mem _ (hwatch id' fn r h).1, (hwatch id' fn r h).2⟩

/-- Handlers that do nothing. -/
def idle : α → Task α σ := fun _ _ client => ([], client)

theorem perform_idle (l : Loop α σ) (fn : α) : l.perform (idle fn) = l := rfl

/-- Handlers that do nothing are run as often as the list names their watches. -/
theorem dispatch_idle (l : Loop α σ) {ids : List Nat}
    (h : ∀ i ∈ ids, ∃ w, l.reactor.watches[i]? = some w) :
    ∃ es, (dispatch idle l ids).log = l.log ++ es ∧ ∀ i, runs i es = ids.count i := by
  induction ids generalizing l with
  | nil => exact ⟨[], by simp [dispatch], by simp [runs]⟩
  | cons id ids ih =>
    obtain ⟨w, hw⟩ := h id List.mem_cons_self
    obtain ⟨es, hes, hcount⟩ := ih { l with log := l.log ++ [.watch id w.fn l.reactor] }
      fun i hi => h i (List.mem_cons_of_mem _ hi)
    refine ⟨.watch id w.fn l.reactor :: es, ?_, ?_⟩
    · rw [dispatch, hw]
      dsimp only
      rw [perform_idle, hes]
      simp
    · intro i
      rw [← List.singleton_append, runs_append, hcount i, ← List.singleton_append (x := id),
        List.count_append]
      simp [runs, LoopEvent.watchId, List.countP_singleton, List.count_singleton]

/-- The watches registered since `base` have handles it had not given out. -/
def AddedSince (base l : Loop α σ) : Prop :=
  ∃ es, l.log = base.log ++ es ∧ (∀ id, .added id ∈ es → base.reactor.nextWatchId ≤ id) ∧
    base.reactor.nextWatchId ≤ l.reactor.nextWatchId

theorem AddedSince.extend {base l l' : Loop α σ} (h : AddedSince base l) {es : List (LoopEvent α)}
    (hlog : l'.log = l.log ++ es) (hadded : ∀ id, .added id ∈ es → id = l.reactor.nextWatchId)
    (hnext : l.reactor.nextWatchId ≤ l'.reactor.nextWatchId) : AddedSince base l' := by
  obtain ⟨old, hold, hsince, hle⟩ := h
  refine ⟨old ++ es, by rw [hlog, hold, List.append_assoc], ?_, hle.trans hnext⟩
  intro id hid
  rcases List.mem_append.mp hid with hid | hid
  · exact hsince id hid
  · exact (hadded id hid).symm ▸ hle

theorem AddedSince.addWatchFor {base l : Loop α σ} (h : AddedSince base l) (fd : Int) (fn : α)
    (onWrite : Bool) : AddedSince base (l.addWatchFor fd fn onWrite) := by
  unfold Loop.addWatchFor Reactor.addWatchFor
  by_cases hfd : fd < 0
  · simp only [if_pos hfd]
    exact h.extend rfl (by simp) le_rfl
  · simp only [if_neg hfd]
    exact h.extend rfl (by simp) (Nat.le_succ _)

theorem stable_added (base : Loop α σ) : Stable (AddedSince base) where
  client _ _ h := h
  call l c h := by
    cases c with
    | addWatch fd fn => exact h.addWatchFor fd fn false
    | addWriteWatch fd fn => exact h.addWatchFor fd fn true
    | removeWatch id => exact h
    | arm now period fn periodic => exact h
    | cancel id => exact h.extend rfl (by simp) le_rfl
    | close =>
      unfold Loop.call
      dsimp only
      split
      · exact h
      · exact h.extend rfl (by simp) le_rfl
  timer l now id _ _ h :=
    h.extend rfl (by simp) (expire_rest l.reactor now id).2.1.symm.le
  watch _ _ _ _ h := h.extend rfl (by simp) le_rfl

/-! ## One turn -/

/-- What the turn's poll reports, if it comes to that. -/
def polled (e : Turn α σ) (l : Loop α σ) : Option Ready :=
  if l.running then
    match scanTimers e.now l.reactor.timers.toList none with
    | (some _, _) => none
    | (none, earliest) => some (e.ready (pollTimeout e.maxWaitMs e.now earliest))
  else none

/-- The handlers of watches that a turn runs: each is that of a watch registered at that moment, none
is run twice, and none was registered during the turn. -/
structure RunsOnce (es : List (LoopEvent α)) : Prop where
  registered : ∀ id fn r, .watch id fn r ∈ es → r.watches[id]?.map Watch.fn = some fn
  once : ∀ id, runs id es ≤ 1
  notNew : ∀ id, .added id ∈ es → ∀ fn r, .watch id fn r ∉ es

theorem runOnce_of_polled {handlers : α → Task α σ} {e : Turn α σ} {l : Loop α σ} {ready : Ready}
    (h : polled e (l.drainTasks e.tasks) = some ready) :
    (runOnce handlers e l).1 =
      dispatch handlers (l.drainTasks e.tasks) ((l.drainTasks e.tasks).fireIds ready) := by
  unfold polled at h
  unfold runOnce turn
  dsimp only
  split at h
  · next hrunning =>
    rw [if_pos hrunning]
    split at h
    · nomatch h
    · next earliest hscan =>
      rw [hscan]
      dsimp only
      rw [Option.some.inj h]
  · nomatch h

/-- A turn that does not come to the poll runs no watch handler. -/
theorem turnEvents_of_not_polled (handlers : α → Task α σ) {e : Turn α σ} {l : Loop α σ}
    (h : polled e (l.drainTasks e.tasks) = none) :
    ∀ ev ∈ turnEvents handlers e l, ev.watchId = none := by
  unfold polled at h
  unfold turnEvents runOnce turn
  generalize l.drainTasks e.tasks = d at *
  dsimp only
  split at h
  · next hrunning =>
    rw [if_pos hrunning]
    split at h
    · next kv earliest hscan =>
      rw [hscan]
      dsimp only
      obtain ⟨es, hes, hkind⟩ := log_perform
        { d with
          reactor := d.reactor.expire e.now kv.1, log := d.log ++ [.timer kv.1 kv.2 d.reactor] }
        (handlers kv.2.fn)
      rw [fireTimer, hes, List.append_assoc, List.drop_left]
      intro ev hev
      rcases List.mem_cons.mp hev with rfl | hev
      · rfl
      · exact (hkind ev hev).2
    · cases h
  · next hrunning =>
    rw [if_neg hrunning, List.drop_length]
    simp

/-- The events of a turn, as far as the log says what was registered. -/
theorem added_turnEvents (handlers : α → Task α σ) (e : Turn α σ) (l : Loop α σ) (id : Nat)
    (h : .added id ∈ turnEvents handlers e l) :
    (l.drainTasks e.tasks).reactor.nextWatchId ≤ id := by
  have hsince : AddedSince (l.drainTasks e.tasks) (runOnce handlers e l).1 := by
    have hstart : AddedSince (l.drainTasks e.tasks) (l.drainTasks e.tasks) :=
      ⟨[], (List.append_nil _).symm, by simp, le_rfl⟩
    unfold runOnce
    dsimp only
    split
    · exact (stable_added _).turn handlers e hstart
    · exact hstart
  obtain ⟨es, hes, hadded, -⟩ := hsince
  rw [turnEvents, hes, List.drop_left] at h
  exact hadded id h

theorem runsOnce_of_unshared {l : Loop α σ} (hl : Reachable l) {e : Turn α σ}
    (h : ∀ ready, polled e (l.drainTasks e.tasks) = some ready →
      (l.drainTasks e.tasks).Unshared ready) (handlers : α → Task α σ) :
    RunsOnce (turnEvents handlers e l) := by
  cases hpolled : polled e (l.drainTasks e.tasks) with
  | none =>
    have hnone := turnEvents_of_not_polled handlers hpolled
    refine ⟨?_, fun id => (runs_eq_zero hnone).trans_le (Nat.zero_le 1), ?_⟩
    · intro id fn r hev
      nomatch hnone _ hev
    · intro id _ fn r hev
      nomatch hnone _ hev
  | some ready =>
    have hnodup := (fireIds_nodup_iff _ ready).mpr (h ready hpolled)
    obtain ⟨es, hes, hcount, hwatch⟩ := dispatch_events handlers (l.drainTasks e.tasks)
      ((l.drainTasks e.tasks).fireIds ready)
    have hevents : turnEvents handlers e l = es := by
      rw [turnEvents, runOnce_of_polled hpolled, hes, List.drop_left]
    rw [hevents]
    refine ⟨fun id fn r hev => (hwatch id fn r hev).2, ?_, ?_⟩
    · intro id
      exact (hcount id).trans (List.nodup_iff_count_le_one.mp hnodup id)
    · intro id hadded fn r hev
      -- what fires was registered when the poll was made, under a handle given out before
      obtain ⟨w, hw⟩ := registered_of_mem_fireIds (hwatch id fn r hev).1
      have hfresh : Fresh (l.drainTasks e.tasks).reactor := stable_fresh.drainTasks hl.fresh e.tasks
      have hlt := hfresh.watches id w hw
      have hle := added_turnEvents handlers e l id (by rw [hevents]; exact hadded)
      omega

/-- In every turn, whatever the handlers do, each watch handler that runs is registered at that moment,
runs once and was not registered during the turn, exactly when no two watches of one kind share a
descriptor that the poll reports. -/
theorem runs_ready_once {l : Loop α σ} (hl : Reachable l) (e : Turn α σ) :
    (∀ handlers, RunsOnce (turnEvents handlers e l)) ↔
      ∀ ready, polled e (l.drainTasks e.tasks) = some ready →
        (l.drainTasks e.tasks).Unshared ready := by
  refine ⟨?_, runsOnce_of_unshared hl⟩
  intro hall ready hpolled
  -- handlers that do nothing run as often as the fire list names them
  obtain ⟨es, hes, hcount⟩ := dispatch_idle (l.drainTasks e.tasks)
    (fun i (hi : i ∈ (l.drainTasks e.tasks).fireIds ready) => registered_of_mem_fireIds hi)
  have hevents : turnEvents idle e l = es := by
    rw [turnEvents, runOnce_of_polled hpolled, hes, List.drop_left]
  rw [← fireIds_nodup_iff, List.nodup_iff_count_le_one]
  intro i
  rw [← hcount i, ← hevents]
  exact (hall idle).once i

/-- A loop that watches two descriptors for reading, and a turn that finds all descriptors ready. -/
def twoWatched (first second : Int) : Loop Unit Unit :=
  ((openLoop none ()).call (.addWatch first ())).call (.addWatch second ())

def busyTurn : Turn Unit Unit := ⟨[], 0, 0, fun _ => ⟨fun _ => true, fun _ => true⟩⟩

theorem twoWatched_reachable (first second : Int) : Reachable (twoWatched first second) :=
  .called (.called (.opened none ()) _) _

theorem twoWatched_watches {first second : Int} (hfirst : 0 ≤ first) (hsecond : 0 ≤ second) (k : Nat) :
    (twoWatched first second).reactor.watches[k]? =
      if k = 2 then some ⟨second, (), false⟩
      else if k = 1 then some ⟨first, (), false⟩ else none := by
  simp [twoWatched, openLoop, call, addWatchFor, Reactor.addWatchFor, TreeTable.getElem?_insert,
    not_lt.mpr hfirst, not_lt.mpr hsecond]

/-- On descriptors of their own both handlers run once. -/
theorem runs_ready_once_apart :
    RunsOnce (turnEvents idle busyTurn (twoWatched 5 6)) := by
  refine (runs_ready_once (twoWatched_reachable 5 6) busyTurn).mpr ?_ idle
  intro ready _ i j w v hi hj _ hfd _
  simp only [busyTurn, drainTasks, List.foldl_nil,
    twoWatched_watches (show (0 : Int) ≤ 5 by decide) (show (0 : Int) ≤ 6 by decide)] at hi hj
  grind

/-- On one descriptor each of the two handlers runs twice in a turn. -/
theorem not_runs_ready_once :
    Reachable (twoWatched 5 5) ∧ runs 1 (turnEvents idle busyTurn (twoWatched 5 5)) = 2 ∧
      runs 2 (turnEvents idle busyTurn (twoWatched 5 5)) = 2 ∧
      ¬ RunsOnce (turnEvents idle busyTurn (twoWatched 5 5)) := by
  have hfirst : runs 1 (turnEvents idle busyTurn (twoWatched 5 5)) = 2 := by decide +kernel
  refine ⟨twoWatched_reachable 5 5, hfirst, by decide +kernel, ?_⟩
  intro honce
  have hle := honce.once 1
  rw [hfirst] at hle
  exact absurd hle (by decide)

end Tc8Harness.Testability.Loop
