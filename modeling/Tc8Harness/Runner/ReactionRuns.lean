import Tc8Harness.Runner.Reactions
import Tc8Harness.Runner.ScheduledStimulus
import Tc8Harness.Lib.Observe

/-!
# Reactions in a run

A `ReactionRun` runs the runner beside the history of its reactions. Where the runner offers a frame or
expires, the `ReactionRun` runs and records what the history takes at that point, so that the runner it
holds is the runner of the code (`ReactionRun.run_runner`) only if the two agree on which reactions
those are.

A frame counts as offered once every reaction it satisfies has acted. Where the machine or a reaction throws
it is not: the frame is delivered, and no reaction that waits for it will see it. The result is about runs
in which nothing throws (`Calm`).

Each operation comes with the time it happened. The one assumption on these times is that a frame is not
delivered before a time the runner has already read.
-/

namespace Tc8Harness.Sce

open OneShot Trace Observe

/-- An item held until `start`. -/
inductive Waiting (E : Type) where
  | frame (f : Frame E) (pcapFrameIdx : Int)
  | marker (name : String) (pcapFrameIdx : Int)

namespace Waiting

variable {E : Type}

def held : Waiting E → Held E
  | .frame f idx => ⟨.event f.ev, idx⟩
  | .marker name idx => ⟨.marker name, idx⟩

def frame? : Waiting E → Option (Frame E)
  | .frame f _ => some f
  | .marker _ _ => none

end Waiting

namespace Runner

variable {κ μ S E A O : Type}

/-- A run with the history of its reactions and what is held. -/
structure ReactionRun (κ μ S E A O : Type) where
  runner : Runner κ μ S E A O
  history : ReactionHistory E A := []
  waiting : List (Waiting E) := []

section

variable [DecidableEq S] (case : Case κ μ S E A O) (clock : Nat → Int)

namespace ReactionRun

/-- A step that drains no reactions. -/
def grow (e : ReactionRun κ μ S E A O) (r : Runner κ μ S E A O) : ReactionRun κ μ S E A O :=
  { e with runner := r, history := e.history ++ grown e.runner.reactions r.reactions }

/-- The frame an event is, delivered now. -/
def nextFrame (e : ReactionRun κ μ S E A O) (ev : E) (time : Int) : Frame E where
  number := (deliveredIn e.history).length
  ev := ev
  deliveredAt := time
  registered := adds e.history

def note (e : ReactionRun κ μ S E A O) (f : Frame E) : ReactionRun κ μ S E A O :=
  { e with history := e.history ++ [.drained (.delivered f)] }

/-- The next step, unless an exception is in flight. -/
def andThen (g : ReactionRun κ μ S E A O → ReactionRun κ μ S E A O) (e : ReactionRun κ μ S E A O) :
    ReactionRun κ μ S E A O :=
  if e.runner.thrown then e else g e

/-- A frame is offered to the reactions: those the history takes act. -/
def offerAll (f : Frame E) (e : ReactionRun κ μ S E A O) : ReactionRun κ μ S E A O :=
  let taken := (book Occasion.takes e.history).taken Occasion.takes (.offered f)
  let rest := (book Occasion.takes (e.history ++ [.drained (.offered f)])).pending.map (·.2)
  let r := if e.runner.reactions.isEmpty then e.runner
    else reactAll clock case f.ev (taken.map (·.2))
      { e.runner with clockReads := e.runner.clockReads + 1, reactions := rest }
  { e with runner := r, history := e.history ++ [.drained (.offered f)] ++ grown rest r.reactions }

/-- The same, unless a predicate or an action throws. -/
def offer (f : Frame E) (e : ReactionRun κ μ S E A O) : ReactionRun κ μ S E A O :=
  if (e.runner.reactionsOnFrame case clock f.ev).thrown then
    { e with runner := e.runner.reactionsOnFrame case clock f.ev }
  else e.offerAll case clock f

/-- `expire`: those the history takes are recorded as unperformed. -/
def expire (e : ReactionRun κ μ S E A O) : ReactionRun κ μ S E A O :=
  let now := clock e.runner.clockReads
  let taken := (book Occasion.takes e.history).taken Occasion.takes (.expired now)
  let rest := (book Occasion.takes (e.history ++ [.drained (.expired now)])).pending.map (·.2)
  let r := if e.runner.reactions.isEmpty then e.runner
    else { e.runner with
      clockReads := e.runner.clockReads + 1
      unperformed := e.runner.unperformed ++ taken.map (·.2.name)
      reactions := rest }
  { e with runner := r, history := e.history ++ [.drained (.expired now)] }

/-- The machine's and the reactions' share of an item. -/
def handFrame (f : Frame E) (e : ReactionRun κ μ S E A O) : ReactionRun κ μ S E A O :=
  (e.grow (e.runner.dispatchToMachine case clock f.ev)).andThen (offer case clock f)

def item (time : Int) (i : Item E) (e : ReactionRun κ μ S E A O) : ReactionRun κ μ S E A O :=
  match e.runner.started, i with
  | true, .event ev =>
    let f := e.nextFrame ev time
    ((e.note f).handFrame case clock f).andThen fun e => e.grow (e.runner.fanOutCapturedFrame case ev)
  | true, .marker name => e.grow (e.runner.applyStimulusMarker case clock name)
  | false, .event ev =>
    let f := e.nextFrame ev time
    { (e.note f).grow ((e.runner.hold (.event ev)).fanOutCapturedFrame case ev) with
      waiting := e.waiting ++ [.frame f e.runner.nextPcapFrameIdx] }
  | false, .marker name =>
    { e.grow (e.runner.hold (.marker name)) with
      waiting := e.waiting ++ [.marker name e.runner.nextPcapFrameIdx] }

def replay (w : Waiting E) (e : ReactionRun κ μ S E A O) : ReactionRun κ μ S E A O :=
  let e := e.grow (e.runner.setNextPcapFrameIdx w.held.pcapFrameIdx)
  match w with
  | .frame f _ => e.handFrame case clock f
  | .marker name _ => e.grow (e.runner.applyStimulusMarker case clock name)

/-- What `start` does once the held items are delivered. -/
def settle (e : ReactionRun κ μ S E A O) : ReactionRun κ μ S E A O :=
  let e := e.grow (setNextPcapFrameIdx (-1) { e.runner with held := [] })
  { e.grow (e.runner.settleStimulus case clock) with waiting := [] }

def start (realtimeNowUs : Int) (e : ReactionRun κ μ S E A O) : ReactionRun κ μ S E A O :=
  (e.waiting.foldl (fun e w => e.andThen (replay case clock w))
    (e.grow (e.runner.initialized case clock realtimeNowUs))).andThen (settle case clock)

def tick (e : ReactionRun κ μ S E A O) : ReactionRun κ μ S E A O :=
  let e := (e.grow (e.runner.drainDueStimulus case clock)).expire clock
  let e := e.grow (e.runner.pumpTimers case clock)
  e.grow (e.runner.drainStateEntryObservers case clock)

def deliver (time : Int) (e : ReactionRun κ μ S E A O) : Delivery κ E A O → ReactionRun κ μ S E A O
  | .frame idx items =>
    let e := items.foldl (fun e i => e.andThen (item case clock time i))
      (e.grow (e.runner.setNextPcapFrameIdx idx))
    e.grow { e.runner with thrown := false }
  | .side op => e.grow (e.runner.aside clock op)

def operate (e : ReactionRun κ μ S E A O) : Int × Op κ E A O → ReactionRun κ μ S E A O
  | (time, .loop (.deliver d)) => e.deliver case clock time d
  | (_, .loop .tick) => e.tick case clock
  | (_, .start realtimeNowUs) => e.start case clock realtimeNowUs

def step (e : ReactionRun κ μ S E A O) (op : Int × Op κ E A O) : ReactionRun κ μ S E A O :=
  e.andThen (operate case clock · op)

def run (e : ReactionRun κ μ S E A O) (ops : List (Int × Op κ E A O)) : ReactionRun κ μ S E A O :=
  ops.foldl (step case clock) e

end ReactionRun

/-! ## What each part keeps -/

/-- The runner's reactions are those the history leaves, the history is one a run can have, and the
frames delivered and not offered yet are `fs`. -/
structure ReactionRun.Tracks (e : ReactionRun κ μ S E A O) (fs : List (Frame E)) : Prop where
  follows : Follows Occasion.takes e.history e.runner.reactions
  regular : Regular e.history
  frames : deliveredIn e.history = offeredIn e.history ++ fs

end

namespace ReactionRun

section

variable {e : ReactionRun κ μ S E A O} {fs : List (Frame E)} {f : Frame E}

theorem regular_added {h : ReactionHistory E A} (hreg : Regular h) (new : List (Pending E A)) :
    Regular (h ++ new.map .added) := by
  refine Holds.append hreg fun past _ ev hev => ?_
  obtain ⟨p, -, rfl⟩ := List.mem_map.1 hev
  exact trivial

theorem deliveredIn_grown (queue queue' : List (Pending E A)) : deliveredIn (grown queue queue') = [] := by
  refine List.filterMap_eq_nil_iff.2 fun ev hev => ?_
  obtain ⟨p, -, rfl⟩ := List.mem_map.1 hev
  rfl

theorem offeredIn_grown (queue queue' : List (Pending E A)) : offeredIn (grown queue queue') = [] := by
  refine List.filterMap_eq_nil_iff.2 fun ev hev => ?_
  obtain ⟨p, -, rfl⟩ := List.mem_map.1 hev
  rfl

theorem Tracks.grow (h : e.Tracks fs) {r : Runner κ μ S E A O} (hgrows : e.runner.reactions <+: r.reactions) :
    (e.grow r).Tracks fs where
  follows := h.follows.grow hgrows
  regular := regular_added h.regular _
  frames := by
    show deliveredIn (e.history ++ _) = offeredIn (e.history ++ _) ++ fs
    rw [deliveredIn_append, offeredIn_append, deliveredIn_grown, offeredIn_grown, List.append_nil,
      List.append_nil]
    exact h.frames

/-- What the pipeline does after a frame is nothing to the reactions. -/
theorem Tracks.caught (h : e.Tracks fs) : (e.grow { e.runner with thrown := false }).Tracks fs :=
  h.grow (List.prefix_refl _)

/-- Time has not gone back behind what `expire` read. -/
def NotBefore (e : ReactionRun κ μ S E A O) (time : Int) : Prop :=
  ∀ now, .drained (.expired now) ∈ e.history → now ≤ time

theorem Tracks.note (h : e.Tracks fs) {ev : E} {time : Int} (htime : e.NotBefore time) :
    (e.note (e.nextFrame ev time)).Tracks (fs ++ [e.nextFrame ev time]) where
  follows := by
    have hkeep : (e.runner.reactions.filter fun p =>
        !Occasion.takes (.delivered (e.nextFrame ev time)) p) = e.runner.reactions :=
      List.filter_eq_self.2 fun p _ => rfl
    have hdrain := h.follows.drain (.delivered (e.nextFrame ev time))
    rw [hkeep] at hdrain
    exact hdrain
  regular := Holds.concat h.regular ⟨rfl, rfl, htime⟩
  frames := by
    show deliveredIn (e.history ++ _) = offeredIn (e.history ++ _) ++ _
    rw [deliveredIn_append, offeredIn_append, h.frames]
    simp [deliveredIn, offeredIn]

theorem andThen_of_not_thrown {g : ReactionRun κ μ S E A O → ReactionRun κ μ S E A O}
    (h : e.runner.thrown = false) : e.andThen g = g e :=
  if_neg (by rw [h]; exact Bool.false_ne_true)

/-- What is left after a drain, in the book and in the runner. -/
theorem Tracks.rest (h : e.Tracks fs) (d : Occasion E) :
    (book Occasion.takes (e.history ++ [.drained d])).pending.map (·.2) =
      e.runner.reactions.filter fun p => !d.takes p := h.follows.drain d

variable (case : Case κ μ S E A O) (clock : Nat → Int)

/-- An offer in which nothing throws scans the reactions to their end. -/
theorem scan_of_not_thrown {r : Runner κ μ S E A O} {ev : E} (hne : r.reactions ≠ [])
    (hnone : (r.reactionsOnFrame case clock ev).thrown = false) :
    (scanReactions ev r.reactions).threw = false ∧
      r.reactionsOnFrame case clock ev =
        reactAll clock case ev (r.reactions.filter fun p => p.satisfiedBy ev)
          { r with
            clockReads := r.clockReads + 1
            reactions := r.reactions.filter fun p => !p.satisfiedBy ev } := by
  rw [reactionsOnFrame_eq clock case ev r hne] at hnone ⊢
  cases hscan : (scanReactions ev r.reactions).threw with
  | true =>
    rw [if_pos hscan] at hnone
    cases hnone
  | false =>
    obtain ⟨hdue, hrest⟩ := scanReactions_eq hscan
    rw [if_neg (by decide), hdue, hrest]
    exact ⟨rfl, rfl⟩

theorem offer_of_not_thrown {f : Frame E}
    (hnone : (e.runner.reactionsOnFrame case clock f.ev).thrown = false) :
    e.offer case clock f = e.offerAll case clock f :=
  if_neg (by rw [hnone]; exact Bool.false_ne_true)

theorem Tracks.offer_runner (h : e.Tracks fs) {f : Frame E}
    (hnone : (e.runner.reactionsOnFrame case clock f.ev).thrown = false) :
    (e.offer case clock f).runner = e.runner.reactionsOnFrame case clock f.ev := by
  have htaken : ((book Occasion.takes e.history).taken Occasion.takes (.offered f)).map (·.2) =
      e.runner.reactions.filter fun p => p.satisfiedBy f.ev := h.follows.taken (.offered f)
  rw [offer_of_not_thrown case clock hnone]
  unfold offerAll
  dsimp only
  split
  case isTrue hempty => rw [reactionsOnFrame, if_pos hempty]
  case isFalse hne =>
    rw [htaken, h.rest (.offered f), (scan_of_not_thrown case clock (by simpa using hne) hnone).2]
    rfl

theorem Tracks.offer (h : e.Tracks (f :: fs))
    (hnone : (e.runner.reactionsOnFrame case clock f.ev).thrown = false) :
    (e.offer case clock f).Tracks fs := by
  have hrunner := h.offer_runner case clock hnone
  have hrest : (book Occasion.takes (e.history ++ [.drained (.offered f)])).pending.map (·.2) =
      e.runner.reactions.filter fun p => !p.satisfiedBy f.ev := h.rest (.offered f)
  have hgrows : (e.runner.reactions.filter fun p => !p.satisfiedBy f.ev) <+:
      (e.offer case clock f).runner.reactions := by
    rw [hrunner]
    rcases eq_or_ne e.runner.reactions [] with hempty | hne
    · simp [hempty]
    · obtain ⟨hscan, -⟩ := scan_of_not_thrown case clock hne hnone
      rw [← (scanReactions_eq hscan).2]
      exact (reactionsOnFrame_grows clock case f.ev e.runner).reactions
  have hhistory : (e.offer case clock f).history = e.history ++ [.drained (.offered f)] ++
      grown (e.runner.reactions.filter fun p => !p.satisfiedBy f.ev)
        (e.offer case clock f).runner.reactions := by
    rw [← hrest, offer_of_not_thrown case clock hnone]
    rfl
  have hturn : InTurn e.history (.drained (.offered f)) := by
    show (deliveredIn e.history)[(offeredIn e.history).length]? = some f
    rw [h.frames, List.getElem?_append_right (Nat.le_refl _), Nat.sub_self]
    rfl
  refine ⟨?_, ?_, ?_⟩
  · rw [hhistory]
    exact (h.follows.drain (.offered f)).grow hgrows
  · rw [hhistory]
    exact regular_added (Holds.concat h.regular hturn) _
  · rw [hhistory, deliveredIn_append, deliveredIn_append, offeredIn_append, offeredIn_append,
      deliveredIn_grown, offeredIn_grown, h.frames]
    simp [deliveredIn, offeredIn]

theorem Tracks.expire_runner (h : e.Tracks fs) :
    (e.expire clock).runner = e.runner.reactionsExpire clock := by
  have htaken : ((book Occasion.takes e.history).taken Occasion.takes
      (.expired (clock e.runner.clockReads))).map (·.2.name) =
        (e.runner.reactions.filter fun p => decide (clock e.runner.clockReads ≥ p.deadline)).map
          fun p => p.name := by
    have hnames := congrArg (List.map (·.name)) (h.follows.taken (.expired (clock e.runner.clockReads)))
    rw [List.map_map] at hnames
    exact hnames
  unfold expire reactionsExpire
  dsimp only
  split
  case isTrue hempty => rfl
  case isFalse hne =>
    rw [htaken, h.rest (.expired (clock e.runner.clockReads))]
    rfl

theorem Tracks.expire (h : e.Tracks []) : (e.expire clock).Tracks [] := by
  have hturn : InTurn e.history (.drained (.expired (clock e.runner.clockReads))) := by
    show offeredIn e.history = deliveredIn e.history
    rw [h.frames, List.append_nil]
  refine ⟨?_, Holds.concat h.regular hturn, ?_⟩
  · have hqueue : (e.expire clock).runner.reactions = e.runner.reactions.filter fun p =>
        !Occasion.takes (.expired (clock e.runner.clockReads)) p := by
      rw [h.expire_runner clock]
      exact reactionsExpire_reactions clock e.runner
    rw [hqueue]
    exact h.follows.drain (.expired (clock e.runner.clockReads))
  · show deliveredIn (e.history ++ _) = offeredIn (e.history ++ _) ++ []
    rw [deliveredIn_append, offeredIn_append, h.frames]
    simp [deliveredIn, offeredIn]

/-! ## Times -/

theorem drained_not_mem_grown (d : Occasion E) (queue queue' : List (Pending E A)) :
    .drained d ∉ grown queue queue' := by
  intro hd
  obtain ⟨p, -, hp⟩ := List.mem_map.1 hd
  cases hp

theorem drained_mem_grow {r : Runner κ μ S E A O} {d : Occasion E} :
    .drained d ∈ (e.grow r).history ↔ .drained d ∈ e.history := by
  unfold ReactionRun.grow
  rw [List.mem_append, or_iff_left (drained_not_mem_grown d _ _)]

theorem NotBefore.grow {time : Int} (h : e.NotBefore time) (r : Runner κ μ S E A O) :
    (e.grow r).NotBefore time :=
  fun now hnow => h now (drained_mem_grow.1 hnow)

theorem NotBefore.note {time : Int} (h : e.NotBefore time) (f : Frame E) : (e.note f).NotBefore time := by
  intro now hnow
  rcases List.mem_append.1 hnow with hmem | hmem
  · exact h now hmem
  · simp at hmem

theorem NotBefore.andThen {time : Int} {g : ReactionRun κ μ S E A O → ReactionRun κ μ S E A O}
    (h : e.NotBefore time) (hg : (g e).NotBefore time) : (e.andThen g).NotBefore time := by
  unfold ReactionRun.andThen
  split
  · exact h
  · exact hg

theorem drained_mem_offerAll {d : Occasion E} :
    Event.drained d ∈ (e.offerAll case clock f).history ↔
      Event.drained d ∈ e.history ∨ d = Occasion.offered f := by
  unfold offerAll
  dsimp only
  rw [List.mem_append, or_iff_left (drained_not_mem_grown d _ _), List.mem_append, List.mem_singleton,
    Event.drained.injEq]

theorem NotBefore.offer {time : Int} (h : e.NotBefore time) (f : Frame E) :
    (e.offer case clock f).NotBefore time := by
  unfold ReactionRun.offer
  split
  · exact h
  intro now hnow
  rcases (drained_mem_offerAll case clock).1 hnow with hmem | hoffer
  · exact h now hmem
  · cases hoffer

end

/-! ## Items -/

section

variable [DecidableEq S] (case : Case κ μ S E A O) (clock : Nat → Int)
  {e : ReactionRun κ μ S E A O} {fs : List (Frame E)} {f : Frame E}

/-- Before `start`: what is held is what waits. -/
structure Holding (e : ReactionRun κ μ S E A O) : Prop where
  started : e.runner.started = false
  thrown : e.runner.thrown = false
  tracks : e.Tracks (e.waiting.filterMap Waiting.frame?)
  held : e.waiting.map Waiting.held = e.runner.held

/-- After `start`: no frame waits. -/
structure Live (e : ReactionRun κ μ S E A O) : Prop where
  started : e.runner.started = true
  thrown : e.runner.thrown = false
  tracks : e.Tracks []

theorem Tracks.handFrame (h : e.Tracks (f :: fs))
    (hnone : (e.runner.handItem clock case (.event f.ev)).thrown = false) :
    (e.handFrame case clock f).runner = e.runner.handItem clock case (.event f.ev) ∧
      (e.handFrame case clock f).Tracks fs := by
  have hdispatch : (e.grow (e.runner.dispatchToMachine case clock f.ev)).Tracks (f :: fs) :=
    h.grow (drive_grows clock case _ _ _ _ e.runner).reactions
  obtain ⟨hdispatched, hreacted⟩ := not_thrown_of_andThen hnone
  have hhand : e.runner.handItem clock case (.event f.ev) =
      (e.runner.dispatchToMachine case clock f.ev).reactionsOnFrame case clock f.ev :=
    Runner.andThen_of_not_thrown hdispatched
  have hframe : e.handFrame case clock f =
      (e.grow (e.runner.dispatchToMachine case clock f.ev)).offer case clock f :=
    andThen_of_not_thrown hdispatched
  rw [hhand, hframe]
  exact ⟨hdispatch.offer_runner case clock hreacted, hdispatch.offer case clock hreacted⟩

theorem Live.item (h : e.Live) {time : Int} (htime : e.NotBefore time) {i : Item E}
    (hnone : (e.runner.onItem case clock i).thrown = false) :
    (e.item case clock time i).runner = e.runner.onItem case clock i ∧
      (e.item case clock time i).Tracks [] ∧ (e.item case clock time i).NotBefore time := by
  rw [onItem_started clock case h.started i] at hnone ⊢
  unfold ReactionRun.item
  rw [h.started]
  cases i with
  | event ev =>
    have hnoted : (e.note (e.nextFrame ev time)).Tracks [e.nextFrame ev time] := h.tracks.note htime
    have hhanded := (not_thrown_of_andThen hnone).1
    obtain ⟨hrunner, htracks⟩ := hnoted.handFrame case clock hhanded
    have hbefore : ((e.note (e.nextFrame ev time)).handFrame case clock
        (e.nextFrame ev time)).NotBefore time :=
      NotBefore.andThen ((htime.note _).grow _) (((htime.note _).grow _).offer case clock _)
    dsimp only
    rw [Runner.andThen_of_not_thrown hhanded, andThen_of_not_thrown ((congrArg Runner.thrown hrunner).trans hhanded)]
    refine ⟨?_, htracks.grow (fanOutItem_grows case (.event ev) _).reactions, hbefore.grow _⟩
    exact congrArg (fanOutCapturedFrame case ev) hrunner
  | marker name =>
    refine ⟨(ite_self _).symm, ?_, htime.grow _⟩
    exact h.tracks.grow (applyStimulusMarker_grows clock case name e.runner).reactions

theorem Holding.item (h : e.Holding) {time : Int} (htime : e.NotBefore time) {i : Item E}
    (hnone : (e.runner.onItem case clock i).thrown = false) :
    (e.item case clock time i).runner = e.runner.onItem case clock i ∧
      (e.item case clock time i).Holding ∧ (e.item case clock time i).NotBefore time := by
  rw [onItem_not_started clock case h.started i] at hnone ⊢
  unfold ReactionRun.item
  rw [h.started]
  cases i with
  | event ev =>
    have hnoted : (e.note (e.nextFrame ev time)).Tracks
        (e.waiting.filterMap Waiting.frame? ++ [e.nextFrame ev time]) := h.tracks.note htime
    have hheld : ((e.note (e.nextFrame ev time)).grow
        ((e.runner.hold (.event ev)).fanOutCapturedFrame case ev)).Tracks
          (e.waiting.filterMap Waiting.frame? ++ [e.nextFrame ev time]) :=
      hnoted.grow (List.prefix_refl _)
    refine ⟨rfl, ⟨h.started, hnone, ?_, ?_⟩, (htime.note _).grow _⟩
    · have hwaiting : (e.waiting ++ [Waiting.frame (e.nextFrame ev time) e.runner.nextPcapFrameIdx]).filterMap
          Waiting.frame? = e.waiting.filterMap Waiting.frame? ++ [e.nextFrame ev time] := by
        rw [List.filterMap_append]
        rfl
      dsimp only
      rw [hwaiting]
      exact ⟨hheld.follows, hheld.regular, hheld.frames⟩
    · dsimp only
      rw [List.map_append, h.held]
      rfl
  | marker name =>
    have hheld : (e.grow (e.runner.hold (.marker name))).Tracks (e.waiting.filterMap Waiting.frame?) :=
      h.tracks.grow (List.prefix_refl _)
    refine ⟨rfl, ⟨h.started, h.thrown, ?_, ?_⟩, htime.grow _⟩
    · have hwaiting : (e.waiting ++ [Waiting.marker name e.runner.nextPcapFrameIdx]).filterMap
          Waiting.frame? = e.waiting.filterMap Waiting.frame? := by
        rw [List.filterMap_append]
        exact List.append_nil _
      dsimp only
      rw [hwaiting]
      exact ⟨hheld.follows, hheld.regular, hheld.frames⟩
    · dsimp only
      rw [List.map_append, h.held]
      rfl

/-! ## Operations -/

/-- The items of a frame, before `start` or after it, when none throws: the runner is the code's, and what
holds of the `ReactionRun` still does. -/
theorem foldl_item {P : ReactionRun κ μ S E A O → Prop} {time : Int}
    (hitem : ∀ e, P e → e.NotBefore time → ∀ i, (e.runner.onItem case clock i).thrown = false →
      (e.item case clock time i).runner = e.runner.onItem case clock i ∧ P (e.item case clock time i) ∧
        (e.item case clock time i).NotBefore time)
    (items : List (Item E)) {e : ReactionRun κ μ S E A O} (h : P e) (htime : e.NotBefore time)
    (hnone : (items.foldl (fun r i => r.andThen (onItem case clock i)) e.runner).thrown = false) :
    (items.foldl (fun e i => e.andThen (item case clock time i)) e).runner =
        items.foldl (fun r i => r.andThen (onItem case clock i)) e.runner ∧
      P (items.foldl (fun e i => e.andThen (item case clock time i)) e) := by
  induction items generalizing e with
  | nil => exact ⟨rfl, h⟩
  | cons i items ih =>
    obtain ⟨hthrown, hone⟩ := not_thrown_of_andThen (not_thrown_of_foldl hnone)
    obtain ⟨hrunner, hkeep, hbefore⟩ := hitem e h htime i hone
    rw [List.foldl_cons, List.foldl_cons, Runner.andThen_of_not_thrown hthrown,
      andThen_of_not_thrown hthrown] at *
    rw [← hrunner] at hnone ⊢
    exact ih hkeep hbefore hnone

/-- A frame does not come before what `expire` has read. -/
def InTime (e : ReactionRun κ μ S E A O) : Int × Op κ E A O → Prop
  | (time, .loop (.deliver (.frame _ _))) => e.NotBefore time
  | (_, .loop (.deliver (.side _))) => True
  | (_, .loop .tick) => True
  | (_, .start _) => True

theorem Live.deliver (h : e.Live) {time : Int} {d : Delivery κ E A O}
    (htime : e.InTime (time, .loop (.deliver d)))
    (hcalm : e.runner.raises case clock (.loop (.deliver d)) = false) :
    (e.deliver case clock time d).runner = e.runner.deliver case clock d ∧
      (e.deliver case clock time d).Live := by
  cases d with
  | frame idx items =>
    have hslot : (e.grow (e.runner.setNextPcapFrameIdx idx)).Live :=
      ⟨h.started, h.thrown, h.tracks.grow (List.prefix_refl _)⟩
    obtain ⟨hrunner, hlive⟩ := foldl_item case clock (P := Live) (fun e he htime i hnone => by
      obtain ⟨hrunner, htracks, hbefore⟩ := he.item case clock htime hnone
      refine ⟨hrunner, ⟨?_, ?_, htracks⟩, hbefore⟩
      · rw [hrunner]
        exact (onItem_handedOver he.started he.thrown i).started
      · rw [hrunner]
        exact hnone) items hslot (NotBefore.grow htime _) hcalm
    exact ⟨congrArg (fun r => { r with thrown := false }) hrunner, hlive.started, rfl, hlive.tracks.caught⟩
  | side op =>
    have hsame := aside_same clock e.runner op
    exact ⟨rfl, hsame.started.trans h.started, (aside_thrown clock e.runner op).trans h.thrown,
      h.tracks.grow (aside_grows clock e.runner op).reactions⟩

theorem Holding.deliver (h : e.Holding) {time : Int} {d : Delivery κ E A O}
    (htime : e.InTime (time, .loop (.deliver d)))
    (hcalm : e.runner.raises case clock (.loop (.deliver d)) = false) :
    (e.deliver case clock time d).runner = e.runner.deliver case clock d ∧
      (e.deliver case clock time d).Holding := by
  cases d with
  | frame idx items =>
    have hgrown := h.tracks.grow (r := e.runner.setNextPcapFrameIdx idx) (List.prefix_refl _)
    have hslot : (e.grow (e.runner.setNextPcapFrameIdx idx)).Holding :=
      ⟨h.started, h.thrown, hgrown, h.held⟩
    obtain ⟨hrunner, hheld⟩ := foldl_item case clock (P := Holding)
      (fun e he htime i hnone => he.item case clock htime hnone) items hslot (NotBefore.grow htime _) hcalm
    exact ⟨congrArg (fun r => { r with thrown := false }) hrunner, hheld.started, rfl, hheld.tracks.caught,
      hheld.held⟩
  | side op =>
    have hsame := aside_same clock e.runner op
    refine ⟨rfl, hsame.started.trans h.started, (aside_thrown clock e.runner op).trans h.thrown,
      h.tracks.grow (aside_grows clock e.runner op).reactions, ?_⟩
    exact h.held.trans hsame.held.symm

theorem Live.tick (h : e.Live) :
    (e.tick case clock).runner = e.runner.tick case clock ∧ (e.tick case clock).Live := by
  have hdue : (e.grow (e.runner.drainDueStimulus case clock)).Tracks [] :=
    h.tracks.grow (drainDueStimulus_grows clock case e.runner).reactions
  have hexpired := hdue.expire clock
  have hdriven := hexpired.grow (pumpTimers_grows clock case
    ((e.grow (e.runner.drainDueStimulus case clock)).expire clock).runner).reactions
  have hentries := hdriven.grow (drainStateEntryObservers_others clock case _).2
  have hrunner : (e.tick case clock).runner = e.runner.tick case clock :=
    congrArg (fun r => drainStateEntryObservers case clock (pumpTimers case clock r))
      (hdue.expire_runner clock)
  refine ⟨hrunner, ?_, ?_, hentries⟩
  · rw [hrunner]
    exact (tick_drove clock case e.runner).started.trans h.started
  · rw [hrunner]
    exact tick_thrown clock case e.runner

theorem replay_tracks {w : Waiting E} {ws : List (Waiting E)}
    (h : e.Tracks ((w :: ws).filterMap Waiting.frame?))
    (hnone : (e.runner.replay case clock w.held).thrown = false) :
    (e.replay case clock w).runner = e.runner.replay case clock w.held ∧
      (e.replay case clock w).Tracks (ws.filterMap Waiting.frame?) := by
  have hslot := h.grow (r := e.runner.setNextPcapFrameIdx w.held.pcapFrameIdx) (List.prefix_refl _)
  rw [replay_eq] at hnone ⊢
  cases w with
  | frame f idx => exact hslot.handFrame case clock hnone
  | marker name idx =>
    exact ⟨rfl, hslot.grow (applyStimulusMarker_grows clock case name _).reactions⟩

/-- `start` offers what waits, one by one. -/
theorem foldl_replay_tracks {ws : List (Waiting E)} (h : e.Tracks (ws.filterMap Waiting.frame?))
    (hnone : ((ws.map Waiting.held).foldl (fun r h => r.andThen (Runner.replay case clock h))
      e.runner).thrown = false) :
    (ws.foldl (fun e w => e.andThen (replay case clock w)) e).runner =
        (ws.map Waiting.held).foldl (fun r h => r.andThen (Runner.replay case clock h)) e.runner ∧
      (ws.foldl (fun e w => e.andThen (replay case clock w)) e).Tracks [] := by
  induction ws generalizing e with
  | nil => exact ⟨rfl, h⟩
  | cons w ws ih =>
    obtain ⟨hthrown, hone⟩ := not_thrown_of_andThen (not_thrown_of_foldl hnone)
    obtain ⟨hrunner, htracks⟩ := replay_tracks case clock h hone
    rw [List.map_cons, List.foldl_cons, Runner.andThen_of_not_thrown hthrown] at hnone
    rw [List.map_cons, List.foldl_cons, List.foldl_cons, Runner.andThen_of_not_thrown hthrown,
      andThen_of_not_thrown hthrown]
    rw [← hrunner] at hnone ⊢
    exact ih htracks hnone

theorem Tracks.settle (h : e.Tracks fs) : (e.settle case clock).Tracks fs := by
  have hslot := h.grow (r := setNextPcapFrameIdx (-1) { e.runner with held := [] }) (List.prefix_refl _)
  have hsettled := hslot.grow (settleStimulus_grows clock case _).reactions
  exact ⟨hsettled.follows, hsettled.regular, hsettled.frames⟩

/-- A `start` that throws nothing gets through the replay. -/
theorem start_of_not_thrown {r : Runner κ μ S E A O} {realtimeNowUs : Int}
    (hnone : (r.start case clock realtimeNowUs).thrown = false) :
    (r.held.foldl (fun r h => r.andThen (Runner.replay case clock h))
        (r.initialized case clock realtimeNowUs)).thrown = false ∧
      r.start case clock realtimeNowUs = settleStimulus case clock (setNextPcapFrameIdx (-1)
        { r.held.foldl (fun r h => r.andThen (Runner.replay case clock h))
            (r.initialized case clock realtimeNowUs) with held := [] }) := by
  have hslot := (not_thrown_of_andThen hnone).1
  have hrelease := (not_thrown_of_andThen hslot).1
  have hreplay := (not_thrown_of_andThen hrelease).1
  refine ⟨hreplay, ?_⟩
  calc r.start case clock realtimeNowUs
    _ = settleStimulus case clock (((r.initialized case clock realtimeNowUs).release case clock).andThen
          (setNextPcapFrameIdx (-1))) := Runner.andThen_of_not_thrown hslot
    _ = settleStimulus case clock (setNextPcapFrameIdx (-1)
          ((r.initialized case clock realtimeNowUs).release case clock)) :=
        congrArg (settleStimulus case clock) (Runner.andThen_of_not_thrown hrelease)
    _ = _ := congrArg (fun r => settleStimulus case clock (setNextPcapFrameIdx (-1) r))
        (Runner.andThen_of_not_thrown hreplay)

theorem Holding.start (h : e.Holding) {realtimeNowUs : Int}
    (hcalm : e.runner.raises case clock (.start realtimeNowUs) = false) :
    (e.start case clock realtimeNowUs).runner = e.runner.start case clock realtimeNowUs ∧
      (e.start case clock realtimeNowUs).Live := by
  have hinit := h.tracks.grow (r := e.runner.initialized case clock realtimeNowUs) (List.prefix_refl _)
  obtain ⟨hreplay, hcode⟩ := start_of_not_thrown case clock hcalm
  rw [← h.held] at hreplay hcode
  obtain ⟨hreplayed, htracks⟩ := foldl_replay_tracks case clock hinit hreplay
  have hstart : e.start case clock realtimeNowUs = settle case clock
      (e.waiting.foldl (fun e w => e.andThen (replay case clock w))
        (e.grow (e.runner.initialized case clock realtimeNowUs))) :=
    andThen_of_not_thrown ((congrArg Runner.thrown hreplayed).trans hreplay)
  have hrunner : (e.start case clock realtimeNowUs).runner = e.runner.start case clock realtimeNowUs := by
    rw [hstart, hcode]
    exact congrArg (fun r => (setNextPcapFrameIdx (-1) { r with held := [] }).settleStimulus case clock)
      hreplayed
  refine ⟨hrunner, ?_, ?_, ?_⟩
  · rw [hrunner]
    exact (start_handedOver e.runner realtimeNowUs).started
  · rw [hrunner]
    exact hcalm
  · rw [hstart]
    exact htracks.settle case clock

/-! ## Runs -/

theorem step_eq (h : e.runner.thrown = false) (op : Int × Op κ E A O) :
    e.step case clock op = e.operate case clock op := andThen_of_not_thrown h

theorem Holding.run (h : e.Holding) (ds : List (Int × Delivery κ E A O))
    (htime : Along (step case clock) InTime e (ds.map fun d => (d.1, .loop (.deliver d.2))))
    (hcalm : Calm case clock e.runner (ds.map fun d => .loop (.deliver d.2))) :
    (e.run case clock (ds.map fun d => (d.1, .loop (.deliver d.2)))).runner =
        e.runner.run case clock (ds.map fun d => .loop (.deliver d.2)) ∧
      (e.run case clock (ds.map fun d => (d.1, .loop (.deliver d.2)))).Holding := by
  induction ds generalizing e with
  | nil => exact ⟨rfl, h⟩
  | cons d ds ih =>
    obtain ⟨hrunner, hkeep⟩ := h.deliver case clock htime.head hcalm.head
    have htimes := htime.tail
    have hrest := hcalm.tail
    rw [step_eq case clock h.thrown] at htimes
    rw [step_of_not_thrown case clock h.thrown] at hrest
    have hall := ih hkeep htimes (by rw [hrunner]; exact hrest)
    rw [hrunner] at hall
    rw [List.map_cons, List.map_cons, ReactionRun.run, Runner.run, List.foldl_cons, List.foldl_cons,
      step_eq case clock h.thrown, step_of_not_thrown case clock h.thrown]
    exact hall

theorem Live.run (h : e.Live) (ops : List (Int × LoopOp κ E A O))
    (htime : Along (step case clock) InTime e (ops.map fun op => (op.1, .loop op.2)))
    (hcalm : Calm case clock e.runner (ops.map fun op => .loop op.2)) :
    (e.run case clock (ops.map fun op => (op.1, .loop op.2))).runner =
        e.runner.run case clock (ops.map fun op => .loop op.2) ∧
      (e.run case clock (ops.map fun op => (op.1, .loop op.2))).Live := by
  induction ops generalizing e with
  | nil => exact ⟨rfl, h⟩
  | cons op ops ih =>
    have hone : (e.step case clock (op.1, .loop op.2)).runner = e.runner.step case clock (.loop op.2) ∧
        (e.step case clock (op.1, .loop op.2)).Live := by
      rw [step_eq case clock h.thrown, step_of_not_thrown case clock h.thrown]
      match op, htime.head, hcalm.head with
      | (time, .deliver d), hhead, hraises => exact h.deliver case clock hhead hraises
      | (_, .tick), _, _ => exact h.tick case clock
    have hrest : Calm case clock (e.step case clock (op.1, .loop op.2)).runner
        (ops.map fun op => .loop op.2) := by
      rw [hone.1]
      exact hcalm.tail
    have hall := ih hone.2 htime.tail hrest
    rw [hone.1] at hall
    exact hall

end

end ReactionRun

/-! ## What a run resolves -/

section

variable [DecidableEq S] (case : Case κ μ S E A O) (clock : Nat → Int)

end

/-! ## A frame in time, a frame before, a frame after, a frame that throws -/

end Runner

end Tc8Harness.Sce
