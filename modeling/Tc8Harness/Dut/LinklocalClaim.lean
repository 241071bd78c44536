import Tc8Harness.Dut.LinklocalAutoconf

/-!
# Claims of link-local addresses

When a claim of `LinklocalAutoconf` is sound: no conflicting ARP had reached the bound socket of its
listener before the end of its ANNOUNCE_WAIT. The listener looks at `stop_listener_` before it looks at the
socket again, so a frame that is queued when it is told to stop is not read. `Live` follows every
conflicting frame from the socket to the flag; the one step that loses some is the listener's test, and
`Drained` asks of that step that there is none to lose.
-/

namespace Tc8Harness.Dut.Linklocal

open Wire

variable {dutMac : List UInt8} {params : Params} {s s' : State} {late : Nat → Prop}

/-- No conflicting frame came before the end of the wait. -/
def Claimed.Sound (dutMac : List UInt8) (c : Claimed) : Prop :=
  ∀ a ∈ c.arrivals, a.at_ < c.waitEnd → conflicts dutMac c.address a.frame = false

theorem slice_take (frame : List UInt8) {i n : Nat} (h : i + n ≤ kFrameBufLen) :
    ((frame.take kFrameBufLen).drop i).take n = (frame.drop i).take n := by
  rw [List.drop_take, List.take_take, Nat.min_eq_left (by omega)]

/-- The bytes the listener tests are within those it receives. -/
theorem conflicts_take (dutMac : List UInt8) (ll : UInt32) (frame : List UInt8) :
    conflicts dutMac ll (frame.take kFrameBufLen) = conflicts dutMac ll frame := by
  have hshort : (frame.take kFrameBufLen).length < kEthArpLen ↔ frame.length < kEthArpLen := by
    rw [List.length_take, kFrameBufLen, kEthArpLen]
    omega
  simp only [conflicts, hshort, readBe16, readBe, copy32, slice_take frame (show 20 + 2 ≤ kFrameBufLen by decide),
    slice_take frame (show 22 + 6 ≤ kFrameBufLen by decide),
    slice_take frame (show 28 + 4 ≤ kFrameBufLen by decide),
    slice_take frame (show 38 + 4 ≤ kFrameBufLen by decide)]

/-! ## Frames on their way to the flag -/

/-- The frame is queued and the listener goes on, or the listener has it. -/
def State.InSight (s : State) (a : Arrival) : Prop :=
  match s.listener with
  | .check | .polling _ | .receiving => a ∈ s.queue
  | .holding buf => a ∈ s.queue ∨ buf = a.frame.take kFrameBufLen
  | _ => False

/-- While the listener is there, or was: a conflicting frame is in sight, or raised the flag, or the run is
being stopped, or it was late. -/
structure State.Live (dutMac : List UInt8) (late : Nat → Prop) (s : State) : Prop where
  seen : ∀ a ∈ s.arrivals, conflicts dutMac s.tentativeLl a.frame = true →
    s.conflictDetected = true ∨ s.stopRequested = true ∨ s.InSight a ∨ late a.at_
  told : s.stopListener = true → s.conflictDetected = true ∨ s.stopRequested = true ∨ late s.now
  left : s.listener = .closing true →
    s.conflictDetected = true ∨ s.stopRequested = true ∨ s.stopListener = true

/-- What a wait that ended at `waitEnd` may miss. -/
def AfterJoin.misses : AfterJoin → Nat → Prop
  | .quit, _ | .early, _ => False
  | .judge waitEnd, t => waitEnd ≤ t

/-- Why the worker tells the listener to stop. -/
def State.Reason (s : State) : AfterJoin → Prop
  | .quit => s.stopRequested = true
  | .early => s.conflictDetected = true
  | .judge waitEnd => s.stopRequested = true ∨ waitEnd ≤ s.now

/-- No conflicting frame has gone by except late ones. -/
def State.Judged (dutMac : List UInt8) (waitEnd : Nat) (s : State) : Prop :=
  ∀ a ∈ s.arrivals, conflicts dutMac s.tentativeLl a.frame = true → waitEnd ≤ a.at_

/-- What holds where the worker is. -/
def State.At (dutMac : List UInt8) (s : State) : Worker → Prop
  | .probeWait _ | .probe _ | .probed _ | .interval _ | .intervalWait _ _ | .intervalEnded _
  | .announceWait _ => s.stopListener = false ∧ s.Live dutMac fun _ => False
  | .stopping next => s.stopListener = false ∧ s.Live dutMac (fun _ => False) ∧ s.Reason next
  | .joining next => s.Live dutMac next.misses ∧ s.Reason next
  | .judgeStop waitEnd => s.listener = .absent ∧ s.Live dutMac fun t => waitEnd ≤ t
  | .judgeConflict waitEnd =>
    s.listener = .absent ∧ (s.conflictDetected = true ∨ s.Judged dutMac waitEnd)
  | .commit waitEnd => s.listener = .absent ∧ s.Judged dutMac waitEnd
  | _ => s.listener = .absent

structure Inv (dutMac : List UInt8) (s : State) : Prop where
  commits : ∀ c ∈ s.commits, c.Sound dutMac
  at_ : s.At dutMac s.worker

/-- When the listener finds itself told to stop, and the run goes on, no conflicting frame that came before
the end of the wait is still queued. -/
def Drained (dutMac : List UInt8) (s : State) : Action → Prop
  | .listen _ =>
    match s.worker with
    | .joining (.judge waitEnd) =>
      s.listener = .check → s.stopListener = true → s.stopRequested = false →
        ∀ a ∈ s.queue, conflicts dutMac s.tentativeLl a.frame = true → waitEnd ≤ a.at_
    | _ => True
  | _ => True

instance (dutMac : List UInt8) (s : State) (action : Action) : Decidable (Drained dutMac s action) := by
  unfold Drained
  split
  · split <;> infer_instance
  · infer_instance

/-! ## Steps beside the worker's -/

theorem State.Live.tick (h : s.Live dutMac late) (hlater : ∀ t u, late t → t ≤ u → late u) (ms : Nat) :
    { s with now := s.now + ms }.Live dutMac late := by
  refine ⟨h.seen, fun hstop => ?_, h.left⟩
  exact (h.told hstop).imp_right (Or.imp_right fun hnow => hlater _ _ hnow (Nat.le_add_right _ _))

theorem State.live_abort (s : State) : { s with stopRequested := true }.Live dutMac late :=
  ⟨fun _ _ _ => .inr (.inl rfl), fun _ => .inr (.inl rfl), fun _ => .inr (.inl rfl)⟩

/-- The state with one more frame in the queue. -/
def State.queued (s : State) (frame : List UInt8) : State :=
  { s with queue := s.queue ++ [⟨s.now, frame⟩] }

theorem State.InSight.queued {a : Arrival} (h : s.InSight a) (frame : List UInt8) :
    (s.queued frame).InSight a := by
  unfold State.InSight at h ⊢
  dsimp only [State.queued]
  split at h
  · exact List.mem_append_left _ h
  · exact List.mem_append_left _ h
  · exact List.mem_append_left _ h
  · exact h.imp_left (List.mem_append_left _)
  · exact h

/-- A new frame is in sight of a listener in its loop; one on its way out has been told why. -/
theorem State.Live.new_frame (h : s.Live dutMac late) (hbound : s.listener.bound = true)
    (frame : List UInt8) :
    s.conflictDetected = true ∨ s.stopRequested = true ∨
      (s.queued frame).InSight ⟨s.now, frame⟩ ∨ late s.now := by
  have hqueued : (⟨s.now, frame⟩ : Arrival) ∈ s.queue ++ [⟨s.now, frame⟩] :=
    List.mem_append_right _ (List.mem_singleton_self _)
  unfold State.InSight
  dsimp only [State.queued]
  cases hl : s.listener with
  | check => exact .inr (.inr (.inl hqueued))
  | polling _ => exact .inr (.inr (.inl hqueued))
  | receiving => exact .inr (.inr (.inl hqueued))
  | holding _ => exact .inr (.inr (.inl (.inl hqueued)))
  | closing bound =>
    rw [hl] at hbound
    obtain rfl : bound = true := hbound
    rcases h.left hl with hdetected | hstop | htold
    · exact .inl hdetected
    · exact .inr (.inl hstop)
    · exact (h.told htold).imp_right (Or.imp_right .inr)
  | absent | opening | opened | finished =>
    rw [hl] at hbound
    nomatch hbound

theorem State.Live.deliver (h : s.Live dutMac late) {frame : List UInt8}
    (hstep : s.deliver frame = some s') : s'.Live dutMac late := by
  unfold State.deliver at hstep
  split at hstep
  · obtain rfl := Option.some.inj hstep
    refine ⟨fun a ha hconflict => ?_, h.told, h.left⟩
    have hold : a ∈ s.arrivals → s.conflictDetected = true ∨ s.stopRequested = true ∨
        (s.queued frame).InSight a ∨ late a.at_ := by
      intro ha
      exact (h.seen a ha hconflict).imp_right (Or.imp_right (Or.imp_left (·.queued frame)))
    dsimp only at ha
    split at ha
    · next hbound =>
      rcases List.mem_append.1 ha with ha | ha
      · exact hold ha
      · obtain rfl := List.mem_singleton.1 ha
        exact h.new_frame hbound frame
    · exact hold ha
  · nomatch hstep

/-- The listener moves on with the queue and the flags as they are. -/
theorem State.Live.move (h : s.Live dutMac late) {listener : Listener}
    (hsight : ∀ a, s.InSight a → { s with listener := listener }.InSight a)
    (hleft : listener ≠ .closing true) : { s with listener := listener }.Live dutMac late := by
  refine ⟨fun a ha hconflict => ?_, h.told, fun hclosing => (hleft hclosing).elim⟩
  exact (h.seen a ha hconflict).imp_right (Or.imp_right (Or.imp_left (hsight a)))

theorem State.Live.listenerStep (h : s.Live dutMac late) {ok : Bool}
    (hdrained : s.listener = .check → s.stopListener = true → s.stopRequested = false →
      ∀ a ∈ s.queue, conflicts dutMac s.tentativeLl a.frame = true →
        s.conflictDetected = true ∨ late a.at_)
    (hstep : s.listenerStep dutMac ok = some s') : s'.Live dutMac late := by
  unfold State.listenerStep at hstep
  cases hl : s.listener with
  | absent | finished =>
    rw [hl] at hstep
    nomatch hstep
  | opening =>
    rw [hl] at hstep
    obtain rfl := Option.some.inj hstep
    refine h.move (fun a hsight => ?_) (by split <;> nofun)
    rw [State.InSight, hl] at hsight
    exact hsight.elim
  | opened =>
    rw [hl] at hstep
    obtain rfl := Option.some.inj hstep
    refine h.move (fun a hsight => ?_) (by split <;> nofun)
    rw [State.InSight, hl] at hsight
    exact hsight.elim
  | check =>
    rw [hl] at hstep
    dsimp only at hstep
    split at hstep
    · next hstopped =>
      obtain rfl := Option.some.inj hstep
      rw [Bool.or_eq_true] at hstopped
      refine ⟨fun a ha hconflict => ?_, h.told, fun _ => .inr hstopped.symm⟩
      rcases h.seen a ha hconflict with hdetected | hstop | hsight | hlater
      · exact .inl hdetected
      · exact .inr (.inl hstop)
      · rw [State.InSight, hl] at hsight
        cases hstop : s.stopRequested with
        | true => exact .inr (.inl rfl)
        | false =>
          have htold := hstopped.resolve_right (by rw [hstop]; nofun)
          exact (hdrained hl htold hstop a hsight hconflict).imp_right fun hlater => .inr (.inr hlater)
      · exact .inr (.inr (.inr hlater))
    · obtain rfl := Option.some.inj hstep
      refine h.move (fun a hsight => ?_) nofun
      rwa [State.InSight, hl] at hsight
  | polling deadline =>
    rw [hl] at hstep
    have hqueue : ∀ a, s.InSight a → a ∈ s.queue := by
      intro a hsight
      rwa [State.InSight, hl] at hsight
    dsimp only at hstep
    split at hstep
    · obtain rfl := Option.some.inj hstep
      exact h.move hqueue nofun
    · split at hstep
      · obtain rfl := Option.some.inj hstep
        exact h.move hqueue nofun
      · split at hstep
        · obtain rfl := Option.some.inj hstep
          exact h.move hqueue nofun
        · nomatch hstep
  | receiving =>
    rw [hl] at hstep
    have hqueue : ∀ a, s.InSight a → a ∈ s.queue := by
      intro a hsight
      rwa [State.InSight, hl] at hsight
    dsimp only at hstep
    split at hstep
    · obtain rfl := Option.some.inj hstep
      exact h.move hqueue nofun
    · split at hstep
      · nomatch hstep
      · next first queue hcons =>
        obtain rfl := Option.some.inj hstep
        refine ⟨fun a ha hconflict => ?_, h.told, nofun⟩
        refine (h.seen a ha hconflict).imp_right (Or.imp_right (Or.imp_left fun hsight => ?_))
        have hmem := hqueue a hsight
        rw [hcons] at hmem
        rcases List.mem_cons.1 hmem with rfl | hmem
        · exact .inr rfl
        · exact .inl hmem
  | holding buf =>
    rw [hl] at hstep
    dsimp only at hstep
    split at hstep
    · obtain rfl := Option.some.inj hstep
      exact ⟨fun _ _ _ => .inl rfl, fun _ => .inl rfl, fun _ => .inl rfl⟩
    · next hclean =>
      obtain rfl := Option.some.inj hstep
      refine ⟨fun a ha hconflict => ?_, h.told, nofun⟩
      refine (h.seen a ha hconflict).imp_right (Or.imp_right (Or.imp_left fun hsight => ?_))
      rw [State.InSight, hl] at hsight
      rcases hsight with hmem | rfl
      · exact hmem
      · rw [conflicts_take] at hclean
        exact (hclean hconflict).elim
  | closing bound =>
    rw [hl] at hstep
    obtain rfl := Option.some.inj hstep
    refine ⟨fun a ha hconflict => ?_, h.told, nofun⟩
    refine (h.seen a ha hconflict).imp_right (Or.imp_right (Or.imp_left fun hsight => ?_))
    rw [State.InSight, hl] at hsight
    exact hsight.elim

/-- What a step beside the worker's keeps. -/
structure Beside (dutMac : List UInt8) (s s' : State) : Prop where
  worker : s'.worker = s.worker
  commits : s'.commits = s.commits
  stopListener : s'.stopListener = s.stopListener
  reason : ∀ next, s.Reason next → s'.Reason next
  absent : s.listener = .absent → s'.listener = .absent ∧ s'.arrivals = s.arrivals ∧
    s'.tentativeLl = s.tentativeLl ∧ s'.conflictDetected = s.conflictDetected
  live : ∀ late, (∀ t u, late t → t ≤ u → late u) →
    (s.stopListener = true → s.listener ≠ .absent →
      ∃ next, s.worker = .joining next ∧ late = next.misses ∧ s.Reason next) →
    s.Live dutMac late → s'.Live dutMac late

theorem AfterJoin.misses_mono (next : AfterJoin) (t u : Nat) (h : next.misses t) (hle : t ≤ u) :
    next.misses u := by
  cases next with
  | quit | early => exact h
  | judge waitEnd => exact Nat.le_trans h hle

theorem State.Judged.congr {waitEnd : Nat} (h : s.Judged dutMac waitEnd)
    (harrivals : s'.arrivals = s.arrivals) (hll : s'.tentativeLl = s.tentativeLl) :
    s'.Judged dutMac waitEnd := by
  rw [State.Judged, harrivals, hll]
  exact h

theorem Beside.inv (hs : Beside dutMac s s') (h : Inv dutMac s) : Inv dutMac s' := by
  refine ⟨by rw [hs.commits]; exact h.commits, ?_⟩
  rw [hs.worker]
  have hat := h.at_
  have hprobing : s.stopListener = false ∧ s.Live dutMac (fun _ => False) →
      s'.stopListener = false ∧ s'.Live dutMac fun _ => False := by
    rintro ⟨hstop, hlive⟩
    refine ⟨hs.stopListener.trans hstop, hs.live _ (fun _ _ h _ => h) (fun htold => ?_) hlive⟩
    rw [hstop] at htold
    nomatch htold
  have hmoved := hs.live
  revert hat
  generalize s.worker = w at hmoved
  intro hat
  cases w with
  | probeWait _ | probe _ | probed _ | interval _ | intervalWait _ _ | intervalEnded _
  | announceWait _ => exact hprobing hat
  | stopping next =>
    obtain ⟨hstop, hlive, hreason⟩ := hat
    obtain ⟨hstop', hlive'⟩ := hprobing ⟨hstop, hlive⟩
    exact ⟨hstop', hlive', hs.reason next hreason⟩
  | joining next =>
    obtain ⟨hlive, hreason⟩ := hat
    refine ⟨hmoved _ next.misses_mono (fun _ _ => ⟨next, rfl, rfl, hreason⟩) hlive, ?_⟩
    exact hs.reason next hreason
  | judgeStop waitEnd =>
    obtain ⟨habsent, hlive⟩ := hat
    refine ⟨(hs.absent habsent).1, hmoved _ (fun _ _ => Nat.le_trans) ?_ hlive⟩
    exact fun _ hne => (hne habsent).elim
  | judgeConflict waitEnd =>
    obtain ⟨habsent, hjudged⟩ := hat
    obtain ⟨habsent', harrivals, hll, hdetected⟩ := hs.absent habsent
    rw [← hdetected] at hjudged
    exact ⟨habsent', hjudged.imp_right fun h => h.congr harrivals hll⟩
  | commit waitEnd =>
    obtain ⟨habsent, hjudged⟩ := hat
    obtain ⟨habsent', harrivals, hll, -⟩ := hs.absent habsent
    exact ⟨habsent', hjudged.congr harrivals hll⟩
  | discover | dhcpWait _ | outer | attempt | rateLimitWait _ | pick | announce _
  | announceInterval _ | steady | ceased | done => exact (hs.absent hat).1

theorem beside_tick (s : State) (ms : Nat) : Beside dutMac s { s with now := s.now + ms } := by
  refine ⟨rfl, rfl, rfl, fun next h => ?_, fun h => ⟨h, rfl, rfl, rfl⟩, fun _ hlater _ h => h.tick hlater ms⟩
  cases next with
  | quit | early => exact h
  | judge waitEnd => exact h.imp_right fun hle => Nat.le_trans hle (Nat.le_add_right _ _)

theorem beside_abort (s : State) : Beside dutMac s { s with stopRequested := true } := by
  refine ⟨rfl, rfl, rfl, fun next h => ?_, fun h => ⟨h, rfl, rfl, rfl⟩, fun _ _ _ _ => s.live_abort⟩
  cases next with
  | quit => rfl
  | early => exact h
  | judge waitEnd => exact .inl rfl

theorem beside_cease (s : State) : Beside dutMac s { s with ceaseRequested := true } := by
  refine ⟨rfl, rfl, rfl, fun next h => ?_, fun h => ⟨h, rfl, rfl, rfl⟩, fun _ _ _ h => ⟨h.seen, h.told, h.left⟩⟩
  cases next <;> exact h

theorem beside_deliver {frame : List UInt8} (hstep : s.deliver frame = some s') :
    Beside dutMac s s' := by
  have hlive : ∀ late, s.Live dutMac late → s'.Live dutMac late := fun _ h => h.deliver hstep
  unfold State.deliver at hstep
  split at hstep
  · next hsocket =>
    obtain rfl := Option.some.inj hstep
    refine ⟨rfl, rfl, rfl, fun next h => by cases next <;> exact h, fun habsent => ?_,
      fun late _ _ h => hlive late h⟩
    rw [habsent] at hsocket
    nomatch hsocket
  · nomatch hstep

/-- The listener's steps change the listener, the queue and the flag it raises. -/
theorem listenerStep_keeps {ok : Bool} (hstep : s.listenerStep dutMac ok = some s') :
    s'.worker = s.worker ∧ s'.commits = s.commits ∧ s'.stopListener = s.stopListener ∧
      s'.stopRequested = s.stopRequested ∧ s'.now = s.now ∧
      (s.conflictDetected = true → s'.conflictDetected = true) := by
  grind [State.listenerStep]

theorem beside_listen {ok : Bool} (hdrained : Drained dutMac s (.listen ok))
    (hstep : s.listenerStep dutMac ok = some s') : Beside dutMac s s' := by
  obtain ⟨hworker, hcommits, hstopListener, hstop, hnow, hdetected⟩ := listenerStep_keeps hstep
  refine ⟨hworker, hcommits, hstopListener, fun next h => ?_, fun habsent => ?_, ?_⟩
  · cases next with
    | quit => exact hstop.trans h
    | early => exact hdetected h
    | judge waitEnd =>
      rw [State.Reason, hstop, hnow]
      exact h
  · rw [State.listenerStep, habsent] at hstep
    nomatch hstep
  · intro late _ hphase h
    refine h.listenerStep (fun hcheck htold hstop a ha hconflict => ?_) hstep
    obtain ⟨next, hjoin, rfl, hreason⟩ := hphase htold (by rw [hcheck]; nofun)
    cases next with
    | quit =>
      rw [State.Reason, hstop] at hreason
      nomatch hreason
    | early => exact .inl hreason
    | judge waitEnd =>
      rw [Drained, hjoin] at hdrained
      exact .inr (hdrained hcheck htold hstop a ha hconflict)

/-! ## The worker's steps -/

/-- The worker has moved, and all that the listener sees is as it was. -/
structure Same (s s' : State) : Prop where
  now : s'.now = s.now := by rfl
  stopRequested : s'.stopRequested = s.stopRequested := by rfl
  stopListener : s'.stopListener = s.stopListener := by rfl
  conflictDetected : s'.conflictDetected = s.conflictDetected := by rfl
  tentativeLl : s'.tentativeLl = s.tentativeLl := by rfl
  listener : s'.listener = s.listener := by rfl
  queue : s'.queue = s.queue := by rfl
  arrivals : s'.arrivals = s.arrivals := by rfl
  commits : s'.commits = s.commits := by rfl

theorem Same.live (hs : Same s s') (h : s.Live dutMac late) : s'.Live dutMac late := by
  refine ⟨fun a ha hconflict => ?_, fun htold => ?_, fun hclosing => ?_⟩
  · rw [hs.arrivals] at ha
    rw [hs.tentativeLl] at hconflict
    rw [hs.conflictDetected, hs.stopRequested, State.InSight, hs.listener, hs.queue]
    exact h.seen a ha hconflict
  · rw [hs.stopListener] at htold
    rw [hs.conflictDetected, hs.stopRequested, hs.now]
    exact h.told htold
  · rw [hs.listener] at hclosing
    rw [hs.conflictDetected, hs.stopRequested, hs.stopListener]
    exact h.left hclosing

theorem Same.reason (hs : Same s s') {next : AfterJoin} (h : s.Reason next) : s'.Reason next := by
  cases next with
  | quit => exact hs.stopRequested.trans h
  | early => exact hs.conflictDetected.trans h
  | judge waitEnd =>
    rw [State.Reason, hs.stopRequested, hs.now]
    exact h

/-- What holds for the worker's next place, before it goes there. -/
theorem Inv.goto (h : Inv dutMac s) (hs : Same s s') (hat : s.At dutMac s'.worker) : Inv dutMac s' := by
  refine ⟨by rw [hs.commits]; exact h.commits, ?_⟩
  revert hat
  generalize s'.worker = w
  intro hat
  cases w with
  | probeWait _ | probe _ | probed _ | interval _ | intervalWait _ _ | intervalEnded _
  | announceWait _ => exact ⟨hs.stopListener.trans hat.1, hs.live hat.2⟩
  | stopping next => exact ⟨hs.stopListener.trans hat.1, hs.live hat.2.1, hs.reason hat.2.2⟩
  | joining next => exact ⟨hs.live hat.1, hs.reason hat.2⟩
  | judgeStop waitEnd => exact ⟨hs.listener.trans hat.1, hs.live hat.2⟩
  | judgeConflict waitEnd =>
    obtain ⟨habsent, hjudged⟩ := hat
    rw [← hs.conflictDetected] at hjudged
    exact ⟨hs.listener.trans habsent, hjudged.imp_right fun h => h.congr hs.arrivals hs.tentativeLl⟩
  | commit waitEnd => exact ⟨hs.listener.trans hat.1, hat.2.congr hs.arrivals hs.tentativeLl⟩
  | discover | dhcpWait _ | outer | attempt | rateLimitWait _ | pick | announce _
  | announceInterval _ | steady | ceased | done => exact hs.listener.trans hat

theorem Inv.wake (h : Inv dutMac s) {deadline : Nat} {stopped next : Worker}
    (hstopped : s.stopRequested = true → s.At dutMac stopped)
    (hnext : s.stopRequested = false → deadline ≤ s.now → s.At dutMac next)
    (hstep : s.wake deadline stopped next = some s') : Inv dutMac s' := by
  unfold State.wake at hstep
  split at hstep
  · next hstop =>
    obtain rfl := Option.some.inj hstep
    exact h.goto {} (hstopped hstop)
  · next hstop =>
    split at hstep
    · next hdue =>
      obtain rfl := Option.some.inj hstep
      exact h.goto {} (hnext (Bool.eq_false_iff.2 hstop) hdue)
    · nomatch hstep

/-- The listener is told to stop. -/
theorem Inv.tell {next : AfterJoin} (h : Inv dutMac s) (hw : s.worker = .stopping next) :
    Inv dutMac { s with stopListener := true, worker := .joining next } := by
  have hat := h.at_
  rw [hw] at hat
  obtain ⟨-, hlive, hreason⟩ := hat
  refine ⟨h.commits, ⟨fun a ha hconflict => ?_, fun _ => ?_, fun _ => .inr (.inr rfl)⟩, ?_⟩
  · exact (hlive.seen a ha hconflict).imp_right (Or.imp_right (Or.imp_right False.elim))
  · cases next with
    | quit => exact .inr (.inl hreason)
    | early => exact .inl hreason
    | judge waitEnd => exact .inr hreason
  · cases next <;> exact hreason

/-- The listener is joined. -/
theorem Inv.joined {next : AfterJoin} (h : Inv dutMac s) (hw : s.worker = .joining next)
    (hgone : s.listener = .absent ∨ s.listener = .finished) : Inv dutMac (s.joined next) := by
  have hat := h.at_
  rw [hw] at hat
  obtain ⟨hlive, -⟩ := hat
  have hsight : ∀ a, ¬ s.InSight a := by
    intro a ha
    unfold State.InSight at ha
    rcases hgone with hgone | hgone <;> rw [hgone] at ha <;> exact ha
  cases next with
  | quit => exact ⟨h.commits, rfl⟩
  | early => exact ⟨h.commits, rfl⟩
  | judge waitEnd =>
    refine ⟨h.commits, rfl, fun a ha hconflict => ?_, hlive.told, nofun⟩
    exact (hlive.seen a ha hconflict).imp_right (Or.imp_right (Or.imp_left fun ha => (hsight a ha).elim))

/-- What the worker finds when the listener is gone and the run goes on. -/
theorem State.Live.judged {waitEnd : Nat} (h : s.Live dutMac fun t => waitEnd ≤ t)
    (habsent : s.listener = .absent) (hstop : s.stopRequested = false) :
    s.conflictDetected = true ∨ s.Judged dutMac waitEnd := by
  cases hdetected : s.conflictDetected with
  | true => exact .inl rfl
  | false =>
    refine .inr fun a ha hconflict => ?_
    rcases h.seen a ha hconflict with hdetected' | hstop' | hsight | hlater
    · rw [hdetected] at hdetected'
      nomatch hdetected'
    · rw [hstop] at hstop'
      nomatch hstop'
    · rw [State.InSight, habsent] at hsight
      exact hsight.elim
    · exact hlater

theorem Inv.commit {waitEnd : Nat} (h : Inv dutMac s) (hat : s.At dutMac (.commit waitEnd)) :
    ∀ c ∈ s.commits ++ [⟨s.tentativeLl, waitEnd, s.arrivals⟩], c.Sound dutMac := by
  refine List.forall_mem_append.2 ⟨h.commits, List.forall_mem_singleton.2 fun a ha hbefore => ?_⟩
  rw [Bool.eq_false_iff]
  intro hconflict
  exact Nat.not_le_of_lt hbefore (hat.2 a ha hconflict)

theorem Inv.workerStep (h : Inv dutMac s) (hstep : s.workerStep params = some s') :
    Inv dutMac s' := by
  have hat := h.at_
  unfold State.workerStep at hstep
  cases hw : s.worker with
  | discover | probe _ =>
    rw [hw] at hstep hat
    obtain rfl := Option.some.inj hstep
    exact h.goto {} hat
  | dhcpWait _ | rateLimitWait _ | announceInterval _ =>
    rw [hw] at hstep hat
    refine Inv.wake h ?_ ?_ hstep
    · exact fun _ => hat
    · exact fun _ _ => hat
  | probeWait _ | intervalWait _ _ =>
    rw [hw] at hstep hat
    refine Inv.wake h ?_ ?_ hstep
    · exact fun hstop => ⟨hat.1, hat.2, hstop⟩
    · exact fun _ _ => hat
  | announceWait deadline =>
    rw [hw] at hstep hat
    refine Inv.wake h ?_ ?_ hstep
    · exact fun hstop => ⟨hat.1, hat.2, .inl hstop⟩
    · exact fun _ hdue => ⟨hat.1, hat.2, .inr hdue⟩
  | outer | attempt =>
    rw [hw] at hstep hat
    dsimp only at hstep
    split at hstep
    · obtain rfl := Option.some.inj hstep
      exact h.goto {} hat
    · obtain rfl := Option.some.inj hstep
      exact h.goto {} hat
  | probed i =>
    rw [hw] at hstep hat
    dsimp only at hstep
    split at hstep
    · next hdetected =>
      obtain rfl := Option.some.inj hstep
      exact h.goto {} ⟨hat.1, hat.2, hdetected⟩
    · split at hstep
      · obtain rfl := Option.some.inj hstep
        exact h.goto {} hat
      · obtain rfl := Option.some.inj hstep
        exact h.goto {} hat
  | intervalEnded i =>
    rw [hw] at hstep hat
    dsimp only at hstep
    split at hstep
    · next hdetected =>
      obtain rfl := Option.some.inj hstep
      exact h.goto {} ⟨hat.1, hat.2, hdetected⟩
    · obtain rfl := Option.some.inj hstep
      exact h.goto {} hat
  | stopping next =>
    rw [hw] at hstep
    obtain rfl := Option.some.inj hstep
    exact h.tell hw
  | joining next =>
    rw [hw] at hstep
    dsimp only at hstep
    split at hstep
    · next habsent =>
      obtain rfl := Option.some.inj hstep
      exact h.joined hw (.inl habsent)
    · next hfinished =>
      obtain rfl := Option.some.inj hstep
      exact h.joined hw (.inr hfinished)
    · nomatch hstep
  | judgeStop waitEnd =>
    rw [hw] at hstep hat
    dsimp only at hstep
    split at hstep
    · obtain rfl := Option.some.inj hstep
      exact h.goto {} hat.1
    · next hstop =>
      obtain rfl := Option.some.inj hstep
      exact h.goto {} ⟨hat.1, hat.2.judged hat.1 (Bool.eq_false_iff.2 hstop)⟩
  | judgeConflict waitEnd =>
    rw [hw] at hstep hat
    dsimp only at hstep
    split at hstep
    · obtain rfl := Option.some.inj hstep
      exact h.goto {} hat.1
    · next hclean =>
      obtain rfl := Option.some.inj hstep
      exact h.goto {} ⟨hat.1, hat.2.resolve_left hclean⟩
  | commit waitEnd =>
    rw [hw] at hstep hat
    obtain rfl := Option.some.inj hstep
    exact ⟨h.commit hat, hat.1⟩
  | announce i =>
    rw [hw] at hstep hat
    dsimp only at hstep
    split at hstep
    · obtain rfl := Option.some.inj hstep
      exact h.goto {} hat
    · obtain rfl := Option.some.inj hstep
      refine h.goto {} ?_
      dsimp only
      split <;> exact hat
  | steady =>
    rw [hw] at hstep hat
    dsimp only at hstep
    split at hstep
    · obtain rfl := Option.some.inj hstep
      exact h.goto {} hat
    · split at hstep
      · obtain rfl := Option.some.inj hstep
        exact h.goto {} hat
      · obtain rfl := Option.some.inj hstep
        exact h
  | ceased =>
    rw [hw] at hstep hat
    obtain rfl := Option.some.inj hstep
    exact h.goto {} hat
  | pick | interval _ | done =>
    rw [hw] at hstep
    nomatch hstep

/-- A new attempt: nothing has reached its listener. -/
theorem Inv.pickStep (h : Inv dutMac s) {x y : UInt8} (hstep : s.pickStep params x y = some s') :
    Inv dutMac s' := by
  unfold State.pickStep at hstep
  split at hstep
  · obtain rfl := Option.some.inj hstep
    exact ⟨h.commits, rfl, nofun, nofun, nofun⟩
  · nomatch hstep

theorem Inv.intervalStep (h : Inv dutMac s) {ms : Nat} (hstep : s.intervalStep params ms = some s') :
    Inv dutMac s' := by
  have hat := h.at_
  unfold State.intervalStep at hstep
  split at hstep
  · next i hw =>
    rw [hw] at hat
    split at hstep
    · obtain rfl := Option.some.inj hstep
      exact h.goto {} hat
    · nomatch hstep
  · nomatch hstep

/-! ## Runs -/

theorem Inv.step (h : Inv dutMac s) {action : Action} (hdrained : Drained dutMac s action)
    (hstep : step params dutMac s action = some s') : Inv dutMac s' := by
  cases action with
  | work => exact h.workerStep hstep
  | pick x y => exact h.pickStep hstep
  | interval ms => exact h.intervalStep hstep
  | listen ok => exact (beside_listen hdrained hstep).inv h
  | tick ms =>
    obtain rfl := Option.some.inj hstep
    exact (beside_tick s ms).inv h
  | deliver frame => exact (beside_deliver hstep).inv h
  | abort =>
    obtain rfl := Option.some.inj hstep
    exact (beside_abort s).inv h
  | cease =>
    obtain rfl := Option.some.inj hstep
    exact (beside_cease s).inv h

theorem Started.inv (h : Started s) : Inv dutMac s := by
  refine ⟨by rw [h.commits]; nofun, ?_⟩
  rw [h.worker]
  exact h.listener

/-- Every step of the run meets the condition in the state it is taken in. -/
def AllDrained (params : Params) (dutMac : List UInt8) : State → List Action → Prop
  | _, [] => True
  | s, action :: actions => Drained dutMac s action ∧
    ∀ s' ∈ step params dutMac s action, AllDrained params dutMac s' actions

instance decidableAllDrained (params : Params) (dutMac : List UInt8) :
    (s : State) → (actions : List Action) → Decidable (AllDrained params dutMac s actions)
  | _, [] => isTrue trivial
  | s, action :: actions =>
    have : DecidablePred fun s' => AllDrained params dutMac s' actions := fun s' =>
      decidableAllDrained params dutMac s' actions
    inferInstanceAs (Decidable (Drained dutMac s action ∧
      ∀ s' ∈ step params dutMac s action, AllDrained params dutMac s' actions))

theorem Inv.run {actions : List Action} (h : Inv dutMac s)
    (hdrained : AllDrained params dutMac s actions)
    (hrun : run params dutMac s actions = some s') : Inv dutMac s' := by
  induction actions generalizing s with
  | nil =>
    obtain rfl := Option.some.inj hrun
    exact h
  | cons action actions ih =>
    rw [Linklocal.run, List.foldlM_cons] at hrun
    obtain ⟨s₁, hstep, hrest⟩ := Option.bind_eq_some_iff.1 hrun
    exact ih (h.step hdrained.1 hstep) (hdrained.2 s₁ hstep) hrest

/-- **Claims are sound when no frame is left behind.** In every run from `start`, under every interleaving,
in which the listener never leaves its loop for `stop_listener_` with a conflicting frame queued that came
before the end of the ANNOUNCE_WAIT: every address committed so far had no conflicting ARP on the bound
socket of its listener before the end of that wait. -/
theorem claims_sound (params : Params) (dutMac : List UInt8) (s₀ s : State) (actions : List Action)
    (hstart : Started s₀) (hrun : run params dutMac s₀ actions = some s)
    (hdrained : AllDrained params dutMac s₀ actions) : ∀ c ∈ s.commits, c.Sound dutMac :=
  (hstart.inv.run hdrained hrun).commits

/-- The worker's way to the wait after the third Probe, with the listener in its loop. -/
def toAnnounceWait : List Action :=
  [.work, .tick 200, .work, .work, .work, .pick 7 9, .listen true, .listen true, .listen true, .tick 200,
    .work, .work, .work, .interval 200, .tick 200, .work, .work, .work, .work, .interval 200, .tick 200,
    .work, .work, .work, .work]

/-- The worker ends the wait, stops and joins the listener, and judges. -/
def claim : List Action := [.work, .work, .listen true, .listen true, .work, .work, .work, .work]

def stationMac : List UInt8 := [0x02, 0, 0, 0, 0, 0x01]

/-- Another station's ARP Request with 169.254.7.9 as its sender. -/
def conflictingFrame : List UInt8 :=
  List.replicate 12 0xFF ++ [0x08, 0x06, 0, 1, 8, 0, 6, 4, 0, 1, 0x02, 0, 0, 0, 0, 0x02, 0xA9, 0xFE, 7, 9] ++
    List.replicate 6 0 ++ [0xA9, 0xFE, 7, 9]

/-- The listener goes round once more within the wait, and its second poll has just run out. -/
def pollOut : List Action := [.listen true, .listen true, .tick 199, .listen true]

theorem claims_sound_quiet :
    ∃ s, run {} stationMac {} (toAnnounceWait ++ pollOut ++ [.tick 1] ++ claim) = some s ∧
      s.commits ≠ [] ∧ ∀ c ∈ s.commits, c.Sound stationMac := by
  have hdrained : AllDrained {} stationMac {} (toAnnounceWait ++ pollOut ++ [.tick 1] ++ claim) := by
    decide +kernel
  exact ⟨_, rfl, by decide, claims_sound {} stationMac {} _ _ ⟨rfl, rfl, rfl, rfl⟩ rfl hdrained⟩

/-- A frame that comes a millisecond before the end of the wait, while the listener is between its poll and
its test of `stop_listener_`, is not read. -/
theorem not_claims_sound_unread :
    Started {} ∧ ∃ s, run {} stationMac {}
      (toAnnounceWait ++ pollOut ++ [.deliver conflictingFrame, .tick 1] ++ claim) = some s ∧
      ∃ c ∈ s.commits, ¬ c.Sound stationMac := by
  refine ⟨⟨rfl, rfl, rfl, rfl⟩, _, rfl, _, List.mem_singleton_self _, fun hsound => ?_⟩
  have hclean := hsound ⟨999, conflictingFrame⟩ (List.mem_singleton_self _) (by decide)
  revert hclean
  decide

end Tc8Harness.Dut.Linklocal
