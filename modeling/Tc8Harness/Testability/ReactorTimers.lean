import Tc8Harness.Testability.ReactorLoop

/-!
# The order in which the reactor's timers fire

The scan of `Reactor::runOnce` takes the first due timer in the order of the handles. It is the one
with the earliest due time exactly when no due timer that was armed later is due before it.
-/

namespace Tc8Harness.Testability.Loop

variable {α σ : Type}

/-! ## Handles are never given out twice -/

/-- The handles in use are below the counters they are drawn from. -/
structure Fresh (r : Reactor α) : Prop where
  timers : ∀ id t, r.timers[id]? = some t → id < r.nextTimerId
  watches : ∀ id w, r.watches[id]? = some w → id < r.nextWatchId

theorem addWatchFor_rest (r : Reactor α) (fd : Int) (fn : α) (onWrite : Bool) :
    (r.addWatchFor fd fn onWrite).1.timers = r.timers ∧
      (r.addWatchFor fd fn onWrite).1.nextTimerId = r.nextTimerId := by
  unfold Reactor.addWatchFor
  split <;> exact ⟨rfl, rfl⟩

theorem Fresh.addWatchFor {r : Reactor α} (h : Fresh r) (fd : Int) (fn : α) (onWrite : Bool) :
    Fresh (r.addWatchFor fd fn onWrite).1 := by
  unfold Reactor.addWatchFor
  split
  · exact h
  · refine ⟨h.timers, ?_⟩
    intro id w hw
    rw [TreeTable.getElem?_insert] at hw
    split at hw
    · next heq => exact heq ▸ Nat.lt_succ_self _
    · exact Nat.lt_succ_of_lt (h.watches id w hw)

theorem Fresh.arm {r : Reactor α} (h : Fresh r) (now period : Int) (fn : α) (periodic : Bool) :
    Fresh (r.arm now period fn periodic).1 := by
  refine ⟨?_, h.watches⟩
  intro id t ht
  simp only [Reactor.arm, TreeTable.getElem?_insert] at ht
  split at ht
  · next heq => exact heq ▸ Nat.lt_succ_self _
  · exact Nat.lt_succ_of_lt (h.timers id t ht)

theorem Fresh.erase {r : Reactor α} (h : Fresh r) (timer watch : Nat) :
    Fresh (r.cancel timer) ∧ Fresh (r.removeWatch watch) := by
  refine ⟨⟨?_, h.watches⟩, ⟨h.timers, ?_⟩⟩
  · intro id t ht
    simp only [Reactor.cancel, TreeTable.getElem?_erase] at ht
    split at ht
    · nomatch ht
    · exact h.timers id t ht
  · intro id w hw
    simp only [Reactor.removeWatch, TreeTable.getElem?_erase] at hw
    split at hw
    · nomatch hw
    · exact h.watches id w hw

theorem fresh_cleared (r : Reactor α) :
    Fresh ({ r with timers := ∅, watches := ∅ } : Reactor α) where
  timers id t ht := by simp at ht
  watches id w hw := by simp at hw

/-- A timer that is due is re-armed or gone, and every other one stays as it was. -/
theorem getElem?_expire {r : Reactor α} {id : Nat} {t : Timer α} (ht : r.timers[id]? = some t)
    (now : Int) (k : Nat) :
    (r.expire now id).timers[k]? =
      if k = id then if t.periodic then some { t with next := now + t.period } else none
      else r.timers[k]? := by
  unfold Reactor.expire
  rw [ht]
  dsimp only
  split
  · rw [TreeTable.getElem?_insert]
  · rw [TreeTable.getElem?_erase]

theorem expire_rest (r : Reactor α) (now : Int) (id : Nat) :
    (r.expire now id).watches = r.watches ∧ (r.expire now id).nextWatchId = r.nextWatchId ∧
      (r.expire now id).nextTimerId = r.nextTimerId := by
  unfold Reactor.expire
  split
  · exact ⟨rfl, rfl, rfl⟩
  · split <;> exact ⟨rfl, rfl, rfl⟩

theorem Fresh.expire {r : Reactor α} (h : Fresh r) {id : Nat} {t : Timer α}
    (ht : r.timers[id]? = some t) (now : Int) : Fresh (r.expire now id) := by
  obtain ⟨hwatches, hwatchId, htimerId⟩ := expire_rest r now id
  refine ⟨?_, by rw [hwatches, hwatchId]; exact h.watches⟩
  intro k u hu
  rw [getElem?_expire ht] at hu
  rw [htimerId]
  split at hu
  · next heq => exact heq ▸ h.timers id t ht
  · exact h.timers k u hu

theorem stable_fresh : Stable fun l : Loop α σ => Fresh l.reactor where
  client _ _ h := h
  call l c h := by
    cases c with
    | addWatch fd fn => exact h.addWatchFor fd fn false
    | addWriteWatch fd fn => exact h.addWatchFor fd fn true
    | removeWatch id => exact (h.erase 0 id).2
    | arm now period fn periodic => exact h.arm now period fn periodic
    | cancel id => exact (h.erase id 0).1
    | close =>
      unfold Loop.call
      dsimp only
      split
      · exact h
      · exact fresh_cleared l.reactor
  timer _ now _ _ ht h := h.expire ht now
  watch _ _ _ _ h := h

theorem Reachable.fresh {l : Loop α σ} (h : Reachable l) : Fresh l.reactor := by
  induction h with
  | opened waker client => exact fresh_cleared {}
  | called _ c ih => exact stable_fresh.call _ c ih
  | turned _ handlers e ih => exact stable_fresh.runOnce handlers e ih

/-! ## What a turn logs -/

theorem log_call (l : Loop α σ) (c : LoopCall α) :
    ∃ es, (l.call c).log = l.log ++ es ∧ ∀ ev ∈ es, ev.timerId = none ∧ ev.watchId = none := by
  cases c with
  | addWatch fd fn | addWriteWatch fd fn =>
    refine ⟨_, rfl, ?_⟩
    split
    · simp
    · intro ev hev
      rw [List.mem_singleton.mp hev]
      exact ⟨rfl, rfl⟩
  | removeWatch id | arm now period fn periodic => exact ⟨[], by simp [Loop.call], by simp⟩
  | cancel id => exact ⟨[.cancelled id], rfl, by simp [LoopEvent.timerId, LoopEvent.watchId]⟩
  | close =>
    unfold Loop.call
    dsimp only
    split
    · exact ⟨[], by simp, by simp⟩
    · exact ⟨[.closed], rfl, by simp [LoopEvent.timerId, LoopEvent.watchId]⟩

/-- A task or a handler runs no other handler. -/
theorem log_perform (l : Loop α σ) (t : Task α σ) :
    ∃ es, (l.perform t).log = l.log ++ es ∧
      ∀ ev ∈ es, ev.timerId = none ∧ ev.watchId = none := by
  let P := fun l' : Loop α σ =>
    ∃ es, l'.log = l.log ++ es ∧ ∀ ev ∈ es, ev.timerId = none ∧ ev.watchId = none
  refine perform_induction (P := P) (fun _ _ h => h) ?_ ⟨[], by simp, by simp⟩ t
  rintro l' c ⟨es, hes, hkind⟩
  obtain ⟨es', hes', hkind'⟩ := log_call l' c
  refine ⟨es ++ es', by rw [hes', hes, List.append_assoc], ?_⟩
  intro ev hev
  exact (List.mem_append.mp hev).elim (hkind ev) (hkind' ev)

/-- The dispatch of watches fires no timer. -/
theorem log_dispatch (handlers : α → Task α σ) (l : Loop α σ) (ids : List Nat) :
    ∃ es, (dispatch handlers l ids).log = l.log ++ es ∧ ∀ ev ∈ es, ev.timerId = none := by
  induction ids generalizing l with
  | nil => exact ⟨[], by simp [dispatch], by simp⟩
  | cons id ids ih =>
    unfold dispatch
    split
    · exact ih l
    · next w hw =>
      obtain ⟨run, hrun, hkind⟩ :=
        log_perform { l with log := l.log ++ [.watch id w.fn l.reactor] } (handlers w.fn)
      obtain ⟨rest, hrest, htimer⟩ := ih
        (perform { l with log := l.log ++ [.watch id w.fn l.reactor] } (handlers w.fn))
      refine ⟨.watch id w.fn l.reactor :: (run ++ rest), ?_, ?_⟩
      · rw [hrest, hrun]
        simp
      · intro ev hev
        rcases List.mem_cons.mp hev with rfl | hev
        · rfl
        · exact (List.mem_append.mp hev).elim (fun h => (hkind ev h).1) (htimer ev)

theorem log_drainTasks (l : Loop α σ) (tasks : List (Task α σ)) :
    ∃ es, (l.drainTasks tasks).log = l.log ++ es ∧
      ∀ ev ∈ es, ev.timerId = none ∧ ev.watchId = none := by
  unfold drainTasks
  induction tasks generalizing l with
  | nil => exact ⟨[], by simp, by simp⟩
  | cons t tasks ih =>
    obtain ⟨run, hrun, hkind⟩ := log_perform l t
    obtain ⟨rest, hrest, hkind'⟩ := ih (l.perform t)
    refine ⟨run ++ rest, by rw [List.foldl_cons, hrest, hrun, List.append_assoc], ?_⟩
    intro ev hev
    exact (List.mem_append.mp hev).elim (hkind ev) (hkind' ev)

/-- What a turn logs after the posted tasks: the firing of the timer the scan found and what its
handler does, or the dispatch of watches. -/
theorem turnEvents_cases (handlers : α → Task α σ) (e : Turn α σ) (l : Loop α σ) :
    (∃ id t es, (l.drainTasks e.tasks).running = true ∧
        (scanTimers e.now (l.drainTasks e.tasks).reactor.timers.toList none).1 = some (id, t) ∧
        turnEvents handlers e l = .timer id t (l.drainTasks e.tasks).reactor :: es ∧
        ∀ ev ∈ es, ev.timerId = none) ∨
      (((l.drainTasks e.tasks).running = false ∨
        (scanTimers e.now (l.drainTasks e.tasks).reactor.timers.toList none).1 = none) ∧
        ∀ ev ∈ turnEvents handlers e l, ev.timerId = none) := by
  unfold turnEvents runOnce
  generalize l.drainTasks e.tasks = d
  dsimp only
  cases hrun : d.running with
  | false => exact .inr ⟨.inl rfl, by simp⟩
  | true =>
    rw [if_pos rfl]
    unfold turn
    split
    · next id t earliest hscan =>
      obtain ⟨es, hes, hkind⟩ := log_perform
        { d with reactor := d.reactor.expire e.now id, log := d.log ++ [.timer id t d.reactor] }
        (handlers t.fn)
      refine .inl ⟨id, t, es, rfl, congrArg Prod.fst hscan, ?_, fun ev hev => (hkind ev hev).1⟩
      simp only [fireTimer, hes, List.append_assoc, List.drop_left, List.singleton_append]
    · next earliest hscan =>
      obtain ⟨es, hes, hkind⟩ := log_dispatch handlers d
        (d.fireIds (e.ready (pollTimeout e.maxWaitMs e.now earliest)))
      refine .inr ⟨.inr (congrArg Prod.fst hscan), ?_⟩
      simpa only [hes, List.drop_left] using hkind

/-! ## One turn -/

/-- Exactly one timer fired, and none that was pending is due before it. -/
def FiresEarliest (r : Reactor α) (es : List (LoopEvent α)) : Prop :=
  ∃ id t, es.filter (fun ev => ev.timerId.isSome) = [.timer id t r] ∧
    ∀ (j : Nat) (u : Timer α), r.timers[j]? = some u → t.next ≤ u.next

/-- Of the timers that are due, the one with the smallest handle is not due after another. -/
def OldestDueEarliest (r : Reactor α) (now : Int) : Prop :=
  ∀ (i : Nat) (t : Timer α), r.timers[i]? = some t → t.next ≤ now →
    (∀ (j : Nat) (u : Timer α), r.timers[j]? = some u → u.next ≤ now → i ≤ j) →
    ∀ (j : Nat) (u : Timer α), r.timers[j]? = some u → u.next ≤ now → t.next ≤ u.next

/-- The timer that fires is not due after any other when the oldest due one is not due after the
others that are due. -/
theorem OldestDueEarliest.le {r : Reactor α} {now : Int} (h : OldestDueEarliest r now) {id : Nat}
    {t : Timer α} (hscan : (scanTimers now r.timers.toList none).1 = some (id, t)) {j : Nat}
    {u : Timer α} (hj : r.timers[j]? = some u) : t.next ≤ u.next := by
  obtain ⟨ht, hdue, hleast⟩ := scanTimers_some hscan
  by_cases hu : u.next ≤ now
  · exact h id t ht hdue hleast j u hj hu
  · omega

theorem firesEarliest_iff (handlers : α → Task α σ) (e : Turn α σ) (l : Loop α σ)
    (hrunning : (l.drainTasks e.tasks).running = true) {k : Nat} {v : Timer α}
    (hk : (l.drainTasks e.tasks).reactor.timers[k]? = some v) (hv : v.next ≤ e.now) :
    FiresEarliest (l.drainTasks e.tasks).reactor (turnEvents handlers e l) ↔
      OldestDueEarliest (l.drainTasks e.tasks).reactor e.now := by
  rcases turnEvents_cases handlers e l with ⟨id, t, es, -, hscan, hes, hkind⟩ | ⟨hnone, -⟩
  · have hfilter : (turnEvents handlers e l).filter (fun ev => ev.timerId.isSome) =
        [.timer id t (l.drainTasks e.tasks).reactor] := by
      have hrest : es.filter (fun ev => ev.timerId.isSome) = [] := by
        rw [List.filter_eq_nil_iff]
        intro ev hev
        simp [hkind ev hev]
      rw [hes, List.filter_cons_of_pos rfl, hrest]
    obtain ⟨ht, hdue, hleast⟩ := scanTimers_some hscan
    constructor
    · rintro ⟨id', t', hfired, hmin⟩ i u hi hu hfirst j w hj _
      rw [hfilter, List.cons.injEq] at hfired
      obtain ⟨rfl, rfl, -⟩ := LoopEvent.timer.inj hfired.1
      -- both are the due timer with the smallest handle
      obtain rfl : i = id := le_antisymm (hfirst id t ht hdue) (hleast i u hi hu)
      rw [ht] at hi
      obtain rfl := Option.some.inj hi
      exact hmin j w hj
    · intro holdest
      exact ⟨id, t, hfilter, fun j u hj => holdest.le hscan hj⟩
  · rcases hnone with hstopped | hnone
    · rw [hrunning] at hstopped
      nomatch hstopped
    · have := scanTimers_none hnone hk
      omega

/-! ## Runs -/

/-- The loop taken through turns, with the handlers each of them runs. -/
def runTurns (l : Loop α σ) (turns : List ((α → Task α σ) × Turn α σ)) : Loop α σ :=
  turns.foldl (fun l t => (runOnce t.1 t.2 l).1) l

/-- In every turn of a run the oldest due timer is not due after another that is due. -/
def OldestDueEarliestIn : Loop α σ → List ((α → Task α σ) × Turn α σ) → Prop
  | _, [] => True
  | l, t :: turns =>
    OldestDueEarliest (l.drainTasks t.2.tasks).reactor t.2.now ∧
      OldestDueEarliestIn (runOnce t.1 t.2 l).1 turns

/-- A timer fired or was taken away. -/
def Gone (i : Nat) (es : List (LoopEvent α)) : Prop :=
  (∃ ev ∈ es, ev.timerId = some i) ∨ .cancelled i ∈ es ∨ .closed ∈ es

theorem Gone.append {i : Nat} {es : List (LoopEvent α)} (h : Gone i es) (es' : List (LoopEvent α)) :
    Gone i (es ++ es') := by
  rcases h with ⟨ev, hev, hid⟩ | h | h
  · exact .inl ⟨ev, List.mem_append_left _ hev, hid⟩
  · exact .inr (.inl (List.mem_append_left _ h))
  · exact .inr (.inr (List.mem_append_left _ h))

/-- A one-shot timer is pending as it was armed, or it is gone and the events say why. -/
def PendingOrGone (i : Nat) (t : Timer α) (r : Reactor α) (es : List (LoopEvent α)) : Prop :=
  r.timers[i]? = some t ∨ r.timers[i]? = none ∧ Gone i es

theorem PendingOrGone.append {i : Nat} {t : Timer α} {r r' : Reactor α} {es : List (LoopEvent α)}
    (h : PendingOrGone i t r es) (hsame : r'.timers[i]? = r.timers[i]?)
    (es' : List (LoopEvent α)) : PendingOrGone i t r' (es ++ es') := by
  unfold PendingOrGone
  rw [hsame]
  exact h.imp id (And.imp_right fun hgone => hgone.append es')

/-- What became of a timer since the loop `base`, and what the log says of the moments at which a
timer fired. -/
structure Since (base : Loop α σ) (i : Nat) (t : Timer α) (es : List (LoopEvent α)) (l : Loop α σ) :
    Prop where
  log : l.log = base.log ++ es
  used : i < l.reactor.nextTimerId
  now : PendingOrGone i t l.reactor es
  seen : ∀ before id u r after, es = before ++ .timer id u r :: after →
    r.timers[id]? = some u ∧ PendingOrGone i t r before

/-- Where an element of an appended list stands. -/
theorem append_eq_middle {β : Type} {xs ys before after : List β} {x : β}
    (h : xs ++ ys = before ++ x :: after) :
    (∃ after', xs = before ++ x :: after') ∨ ∃ before', before = xs ++ before' ∧
      ys = before' ++ x :: after := by
  rcases List.append_eq_append_iff.mp h with ⟨before', hbefore, hys⟩ | ⟨rest, hxs, hrest⟩
  · exact .inr ⟨before', hbefore, hys⟩
  · cases rest with
    | nil => exact .inr ⟨[], by simpa using hxs.symm, by simpa using hrest.symm⟩
    | cons y rest =>
      obtain ⟨rfl, -⟩ := List.cons.inj hrest
      exact .inl ⟨rest, hxs⟩

/-- Events without a firing keep what the log says. -/
theorem Since.extend {base l l' : Loop α σ} {i : Nat} {t : Timer α} {es es' : List (LoopEvent α)}
    (h : Since base i t es l) (hlog : l'.log = l.log ++ es')
    (hkind : ∀ ev ∈ es', ev.timerId = none) (hused : i < l'.reactor.nextTimerId)
    (hnow : PendingOrGone i t l'.reactor (es ++ es')) : Since base i t (es ++ es') l' where
  log := by rw [hlog, h.log, List.append_assoc]
  used := hused
  now := hnow
  seen := by
    intro before id u r after heq
    rcases append_eq_middle heq with ⟨after', hes⟩ | ⟨before', -, hes'⟩
    · exact h.seen before id u r after' hes
    · have := hkind (.timer id u r) (by rw [hes']; simp)
      nomatch this

theorem since_call {base : Loop α σ} {i : Nat} {t : Timer α} (l : Loop α σ) (c : LoopCall α)
    (h : ∃ es, Since base i t es l) : ∃ es, Since base i t es (l.call c) := by
  obtain ⟨es, h⟩ := h
  obtain ⟨es', hlog, hkind⟩ := log_call l c
  have htimer : ∀ ev ∈ es', ev.timerId = none := fun ev hev => (hkind ev hev).1
  refine ⟨es ++ es', ?_⟩
  cases c with
  | addWatch fd fn | addWriteWatch fd fn =>
    obtain ⟨htimers, hnext⟩ := addWatchFor_rest l.reactor fd fn _
    refine h.extend hlog htimer (hnext ▸ h.used) (h.now.append ?_ es')
    exact congrArg (fun timers : Std.TreeMap Nat (Timer α) => timers[i]?) htimers
  | removeWatch id => exact h.extend hlog htimer h.used (h.now.append rfl es')
  | arm now period fn periodic =>
    refine h.extend hlog htimer (Nat.lt_succ_of_lt h.used) (h.now.append ?_ es')
    -- the handle of the new timer was never given out
    have hne : i ≠ l.reactor.nextTimerId := Nat.ne_of_lt h.used
    simp only [Loop.call, Reactor.arm, TreeTable.getElem?_insert, if_neg hne]
  | cancel id =>
    have hes' : es' = [.cancelled id] := (List.append_cancel_left hlog).symm
    refine h.extend hlog htimer h.used ?_
    by_cases heq : i = id
    · refine .inr ⟨?_, .inr (.inl ?_)⟩
      · simp only [Loop.call, Reactor.cancel, TreeTable.getElem?_erase, if_pos heq]
      · rw [hes', heq]
        simp
    · refine h.now.append ?_ es'
      simp only [Loop.call, Reactor.cancel, TreeTable.getElem?_erase, if_neg heq]
  | close =>
    unfold Loop.call at hlog ⊢
    dsimp only at hlog ⊢
    cases hrunning : l.running with
    | false =>
      simp only [hrunning, Bool.not_false, if_true] at hlog ⊢
      exact h.extend hlog htimer h.used (h.now.append rfl es')
    | true =>
      simp only [hrunning, Bool.not_true, Bool.false_eq_true, if_false] at hlog ⊢
      have hes' : es' = [.closed] := (List.append_cancel_left hlog).symm
      refine h.extend hlog htimer h.used (.inr ⟨?_, .inr (.inr ?_)⟩)
      · exact Std.TreeMap.getElem?_emptyc
      · rw [hes']
        simp

theorem stable_since (base : Loop α σ) (i : Nat) {t : Timer α} (hshot : t.periodic = false) :
    Stable fun l => ∃ es, Since base i t es l where
  client _ _ h := by
    obtain ⟨es, h⟩ := h
    exact ⟨es, h.log, h.used, h.now, h.seen⟩
  call := since_call
  timer l now id u hu h := by
    obtain ⟨es, h⟩ := h
    refine ⟨es ++ [.timer id u l.reactor], ?_, ?_, ?_, ?_⟩
    · simp only [h.log, List.append_assoc]
    · exact (expire_rest l.reactor now id).2.2 ▸ h.used
    · by_cases heq : i = id
      · subst heq
        have hut : u = t := by
          rcases h.now with hpending | ⟨hnone, -⟩
          · rw [hu] at hpending
            exact Option.some.inj hpending
          · rw [hu] at hnone
            nomatch hnone
        refine .inr ⟨?_, .inl ⟨_, List.mem_append_right _ (List.mem_singleton_self _), rfl⟩⟩
        simp only [getElem?_expire hu, hut, hshot, if_true, Bool.false_eq_true, if_false]
      · refine h.now.append ?_ _
        simp only [getElem?_expire hu, if_neg heq]
    · intro before id' u' r after heq
      rcases append_eq_middle heq with ⟨after', hes⟩ | ⟨before', hbefore, hlast⟩
      · exact h.seen before id' u' r after' hes
      · -- it is the timer that fires now
        cases before' with
        | nil =>
          obtain ⟨rfl, rfl, rfl⟩ := LoopEvent.timer.inj (List.cons.inj hlast).1
          rw [hbefore, List.append_nil]
          exact ⟨hu, h.now⟩
        | cons ev rest => simp at hlast
  watch l id w hw h := by
    obtain ⟨es, h⟩ := h
    exact ⟨es ++ [.watch id w.fn l.reactor], h.extend rfl (by simp [LoopEvent.timerId]) h.used
      (h.now.append rfl _)⟩

theorem runTurns_stable {P : Loop α σ → Prop} (hP : Stable P) {l : Loop α σ} (h : P l)
    (turns : List ((α → Task α σ) × Turn α σ)) : P (runTurns l turns) := by
  unfold runTurns
  induction turns generalizing l with
  | nil => exact h
  | cons t turns ih => exact ih (hP.runOnce t.1 t.2 h)

/-- The log only grows. -/
theorem stable_log (base : List (LoopEvent α)) : Stable fun l : Loop α σ => base <+: l.log where
  client _ _ h := h
  call l c h := by
    obtain ⟨es, hes, -⟩ := log_call l c
    exact hes ▸ h.trans (List.prefix_append l.log es)
  timer l _ _ _ _ h := h.trans (List.prefix_append l.log _)
  watch l _ _ _ h := h.trans (List.prefix_append l.log _)

/-- The log of a turn: what was there, the events of the posted tasks, and the turn's own. -/
theorem log_runOnce (handlers : α → Task α σ) (e : Turn α σ) (l : Loop α σ) :
    ∃ posted, (runOnce handlers e l).1.log = l.log ++ (posted ++ turnEvents handlers e l) ∧
      ∀ ev ∈ posted, ev.timerId = none ∧ ev.watchId = none := by
  obtain ⟨posted, hposted, hkind⟩ := log_drainTasks l e.tasks
  have hgrows : (l.drainTasks e.tasks).log <+: (runOnce handlers e l).1.log := by
    unfold runOnce
    dsimp only
    split
    · exact (stable_log _).turn handlers e List.prefix_rfl
    · exact List.prefix_rfl
  obtain ⟨es, hes⟩ := hgrows
  refine ⟨posted, ?_, hkind⟩
  rw [turnEvents, ← hes, List.drop_left, hposted, List.append_assoc]

/-- In a run that meets the condition no timer fires while one that is due before it is pending. -/
theorem fired_le {l : Loop α σ} {turns : List ((α → Task α σ) × Turn α σ)}
    (hall : OldestDueEarliestIn l turns) {es : List (LoopEvent α)}
    (hes : (runTurns l turns).log = l.log ++ es) {id : Nat} {t : Timer α} {r : Reactor α}
    (hfired : .timer id t r ∈ es) {j : Nat} {u : Timer α} (hj : r.timers[j]? = some u) :
    t.next ≤ u.next := by
  induction turns generalizing l es with
  | nil =>
    obtain rfl : es = [] := by simpa [runTurns] using hes
    nomatch hfired
  | cons turn turns ih =>
    obtain ⟨hturn, hrest⟩ := hall
    obtain ⟨posted, hlog, hposted⟩ := log_runOnce turn.1 turn.2 l
    obtain ⟨late, hlate⟩ :=
      runTurns_stable (stable_log (runOnce turn.1 turn.2 l).1.log) List.prefix_rfl turns
    have hsplit : es = posted ++ turnEvents turn.1 turn.2 l ++ late := by
      have hrun : l.log ++ es = (runTurns (runOnce turn.1 turn.2 l).1 turns).log := hes.symm
      rw [← hlate, hlog, List.append_assoc] at hrun
      exact List.append_cancel_left hrun
    rw [hsplit, List.mem_append, List.mem_append] at hfired
    rcases hfired with (hpost | hnow) | hlater
    · nomatch (hposted _ hpost).1
    · rcases turnEvents_cases turn.1 turn.2 l with ⟨id', t', es', -, hscan, hes', hkind⟩ | ⟨-, hkind⟩
      · rw [hes'] at hnow
        rcases List.mem_cons.mp hnow with hev | hin
        · obtain ⟨rfl, rfl, rfl⟩ := LoopEvent.timer.inj hev
          exact hturn.le hscan hj
        · nomatch hkind _ hin
      · nomatch hkind _ hnow
    · exact ih hrest hlate.symm hlater

/-- A timer that is pending in the loop `l` is gone when another of `l` that is due later fires. -/
theorem gone_before {l : Loop α σ} (hl : Reachable l)
    {turns : List ((α → Task α σ) × Turn α σ)} (hall : OldestDueEarliestIn l turns)
    {i j : Nat} {ti tj : Timer α} (hi : l.reactor.timers[i]? = some ti)
    (hj : l.reactor.timers[j]? = some tj) (hiShot : ti.periodic = false)
    (hjShot : tj.periodic = false) (hlt : ti.next < tj.next)
    {before after : List (LoopEvent α)} {t : Timer α} {r : Reactor α}
    (hfired : (runTurns l turns).log = l.log ++ (before ++ .timer j t r :: after)) :
    Gone i before := by
  have hstart : ∀ {k : Nat} {u : Timer α}, l.reactor.timers[k]? = some u →
      ∃ es, Since l k u es l := by
    intro k u hk
    exact ⟨[], (List.append_nil _).symm, hl.fresh.timers k u hk, .inl hk, by simp⟩
  obtain ⟨es, hes⟩ := runTurns_stable (stable_since l i hiShot) (hstart hi) turns
  obtain ⟨es', hes'⟩ := runTurns_stable (stable_since l j hjShot) (hstart hj) turns
  have heq : es = before ++ .timer j t r :: after :=
    List.append_cancel_left (hes.log.symm.trans hfired)
  have heq' : es' = before ++ .timer j t r :: after :=
    List.append_cancel_left (hes'.log.symm.trans hfired)
  obtain ⟨hnow, hpending⟩ := hes.seen before j t r after heq
  rcases hpending with hpending | ⟨-, hgone⟩
  · -- both were pending when `j` fired, and `j` fired as it was armed
    have hle : t.next ≤ ti.next :=
      fired_le hall hfired (List.mem_append_right _ List.mem_cons_self) hpending
    have htj : t = tj := by
      rcases (hes'.seen before j t r after heq').2 with hsame | ⟨hnone, -⟩
      · rw [hnow] at hsame
        exact Option.some.inj hsame
      · rw [hnow] at hnone
        nomatch hnone
    rw [htj] at hle
    omega
  · exact hgone

/-- In a turn at which a timer is due the timer that fires is due no later than any other exactly when
the oldest due one is due no later than the others that are due. In a run whose turns all meet that
condition, of two pending one-shot timers the one that is due first fires first, unless it is taken
away. -/
theorem fires_in_due_order {l : Loop α σ} (hl : Reachable l) :
    (∀ handlers (e : Turn α σ), (l.drainTasks e.tasks).running = true →
      (∃ (k : Nat) (v : Timer α), (l.drainTasks e.tasks).reactor.timers[k]? = some v ∧
        v.next ≤ e.now) →
      (FiresEarliest (l.drainTasks e.tasks).reactor (turnEvents handlers e l) ↔
        OldestDueEarliest (l.drainTasks e.tasks).reactor e.now)) ∧
    ∀ turns, OldestDueEarliestIn l turns →
      ∀ (i j : Nat) (ti tj : Timer α), l.reactor.timers[i]? = some ti →
        l.reactor.timers[j]? = some tj → ti.periodic = false → tj.periodic = false →
        ti.next < tj.next →
        ∀ before t r after, (runTurns l turns).log = l.log ++ (before ++ .timer j t r :: after) →
          Gone i before := by
  refine ⟨?_, ?_⟩
  · rintro handlers e hrunning ⟨k, v, hk, hv⟩
    exact firesEarliest_iff handlers e l hrunning hk hv
  · intro turns hall i j ti tj hi hj hiShot hjShot hlt before t r after hfired
    exact gone_before hl hall hi hj hiShot hjShot hlt hfired

/-- A loop in which two one-shot timers were armed at instant 0. -/
def twoArmed (first second : Int) : Loop Unit Unit :=
  ((openLoop none ()).call (.arm 0 first () false)).call (.arm 0 second () false)

/-- A turn in which nothing is posted and no descriptor is ready. -/
def quietTurn (now : Int) : Turn Unit Unit := ⟨[], now, 0, fun _ => ⟨fun _ => false, fun _ => false⟩⟩

theorem twoArmed_reachable (first second : Int) : Reachable (twoArmed first second) :=
  .called (.called (.opened none ()) _) _

theorem twoArmed_timers (first second : Int) (k : Nat) :
    (twoArmed first second).reactor.timers[k]? =
      if k = 2 then some ⟨second, second, (), false⟩
      else if k = 1 then some ⟨first, first, (), false⟩ else none := by
  simp [twoArmed, openLoop, call, Reactor.arm, TreeTable.getElem?_insert]

/-- Armed in the order in which they are due, the timer that is due first fires. -/
theorem fires_in_due_order_ascending :
    FiresEarliest (twoArmed 10 20).reactor
      (turnEvents (fun _ _ _ => ([], ())) (quietTurn 30) (twoArmed 10 20)) := by
  refine ((fires_in_due_order (twoArmed_reachable 10 20)).1 _ (quietTurn 30) rfl
    ⟨1, _, twoArmed_timers 10 20 1, by decide⟩).mpr ?_
  intro i t hi _ hleast j u hj _
  have hone := hleast 1 _ (twoArmed_timers 10 20 1) (by decide)
  simp only [quietTurn, drainTasks, List.foldl_nil, twoArmed_timers] at hi hj
  grind

/-- Armed in the opposite order, the timer that is due last fires while the other one is pending. -/
theorem not_fires_in_due_order :
    Reachable (twoArmed 20 10) ∧ (twoArmed 20 10).reactor.timers[2]? = some ⟨10, 10, (), false⟩ ∧
      (10 : Int) ≤ (quietTurn 30).now ∧
      ¬ FiresEarliest (twoArmed 20 10).reactor
        (turnEvents (fun _ _ _ => ([], ())) (quietTurn 30) (twoArmed 20 10)) := by
  refine ⟨twoArmed_reachable 20 10, twoArmed_timers 20 10 2, by decide, ?_⟩
  intro hfires
  have holdest := (firesEarliest_iff _ (quietTurn 30) (twoArmed 20 10) rfl
    (twoArmed_timers 20 10 1) (by decide)).mp hfires
  have hleast : ∀ (j : Nat) (u : Timer Unit), (twoArmed 20 10).reactor.timers[j]? = some u →
      u.next ≤ 30 → 1 ≤ j := by
    intro j u hj _
    rw [twoArmed_timers] at hj
    grind
  have hle := holdest 1 _ (twoArmed_timers 20 10 1) (by decide) hleast 2 _
    (twoArmed_timers 20 10 2) (by decide)
  exact absurd hle (by decide)

end Tc8Harness.Testability.Loop
