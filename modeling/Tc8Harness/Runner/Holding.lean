import Tc8Harness.Runner.Steps
import Tc8Harness.Lib.Observe

/-!
# Holding frames changes nothing the machine sees

A stimulus that awaits an observation drains the capture before the listen window opens. The runner
holds what is drained and hands it to the machine in `start`. `holding_invisible` compares a run in
which `start` comes at any point with the run in which it came first: the machine is called on the same
items in the same order, each with its own index in the slot, on none of them before `start`, and every
adopted observer is told of every event once.

That is so in runs in which no call throws (`Calm`). An exception that the pipeline survives on a live frame
is the end of `start` when the frame was held, and with it of the process: the items held behind it are not
delivered (`holding_visible_thrown`).
-/

namespace Tc8Harness.Sce

open Observe

/-- What the stimulus and the case's services do to the runner beside the capture. -/
inductive SideOp (κ E A O : Type) where
  | register (reg : Registration E A O)
  | captured (g : κ → κ)
  | stimulusReturned (tsUs : Int)

/-- What reaches the runner at any time of a run. -/
inductive Delivery (κ E A O : Type) where
  | frame (idx : Int) (items : List (Item E))
  | side (op : SideOp κ E A O)

/-- What reaches the runner once the capture loop runs. -/
inductive LoopOp (κ E A O : Type) where
  | deliver (d : Delivery κ E A O)
  | tick

inductive Op (κ E A O : Type) where
  | loop (op : LoopOp κ E A O)
  | start (realtimeNowUs : Int)

section

variable {κ E A O : Type}

/-- The items of a delivery, each with its frame's index. -/
def Delivery.items : Delivery κ E A O → List (Item E × Int)
  | .frame idx items => items.map fun i => (i, idx)
  | .side _ => []

def LoopOp.items : LoopOp κ E A O → List (Item E × Int)
  | .deliver d => d.items
  | .tick => []

def Op.items : Op κ E A O → List (Item E × Int)
  | .loop op => op.items
  | .start _ => []

def Item.event? : Item E → Option E
  | .event ev => some ev
  | .marker _ => none

/-- The events among some items. -/
def eventsOf (items : List (Item E × Int)) : List E := items.filterMap fun i => i.1.event?

/-- A run in which `start` comes after the deliveries `before`. -/
def heldOps (before : List (Delivery κ E A O)) (realtimeNowUs : Int)
    (after : List (LoopOp κ E A O)) : List (Op κ E A O) :=
  before.map (fun d => .loop (.deliver d)) ++ .start realtimeNowUs :: after.map .loop

/-- The same run with `start` in front. -/
def liveOps (before : List (Delivery κ E A O)) (realtimeNowUs : Int)
    (after : List (LoopOp κ E A O)) : List (Op κ E A O) :=
  .start realtimeNowUs :: (before.map (fun d => .loop (.deliver d)) ++ after.map .loop)

end

namespace Runner

variable {κ μ S E A O : Type}

/-- A runner as it is constructed. -/
def fresh (captured : κ) (sm : μ) : Runner κ μ S E A O := { captured := captured, sm := sm }

/-- The items the machine was called on, each with the index in effect. -/
def received (r : Runner κ μ S E A O) : List (Item E × Int) :=
  r.moves.filterMap fun m => match m.cause with
    | .item i => some (i, m.pcapFrameIdx)
    | .settled => none
    | .tick => none

/-- The events the observer at position `i` was told of. -/
def notifiedTo (r : Runner κ μ S E A O) (i : Nat) : List E :=
  r.notified.filterMap fun n => if n.1 = i then some n.2 else none

/-- The items a machine is to be called on, out of those captured. -/
def machineItems (case : Case κ μ S E A O) (items : List (Item E × Int)) : List (Item E × Int) :=
  items.filter fun i => reachesMachine case i.1

def aside (clock : Nat → Int) (r : Runner κ μ S E A O) : SideOp κ E A O → Runner κ μ S E A O
  | .register reg => r.register clock reg
  | .captured g => { r with captured := g r.captured }
  | .stimulusReturned tsUs => { r with stimulusReturnedTsUs := tsUs }

theorem aside_same (clock : Nat → Int) (r : Runner κ μ S E A O) (op : SideOp κ E A O) :
    SameRun r (r.aside clock op) := by
  cases op with
  | register reg => exact register_same clock r reg
  | captured g => exact ⟨rfl, rfl, rfl, rfl, rfl, rfl, rfl, Nat.le_refl _⟩
  | stimulusReturned tsUs => exact ⟨rfl, rfl, rfl, rfl, rfl, rfl, rfl, Nat.le_refl _⟩

theorem aside_thrown (clock : Nat → Int) (r : Runner κ μ S E A O) (op : SideOp κ E A O) :
    (r.aside clock op).thrown = r.thrown := by
  cases op with
  | register reg => cases reg <;> rfl
  | captured g => rfl
  | stimulusReturned tsUs => rfl

section

variable [DecidableEq S] (case : Case κ μ S E A O) (clock : Nat → Int)

def deliver (r : Runner κ μ S E A O) : Delivery κ E A O → Runner κ μ S E A O
  | .frame idx items => r.onFrame case clock idx items
  | .side op => r.aside clock op

def operate (r : Runner κ μ S E A O) : Op κ E A O → Runner κ μ S E A O
  | .loop (.deliver d) => r.deliver case clock d
  | .loop .tick => r.tick case clock
  | .start realtimeNowUs => r.start case clock realtimeNowUs

/-- One operation. After an exception that nothing has caught there is none. -/
def step (r : Runner κ μ S E A O) (op : Op κ E A O) : Runner κ μ S E A O :=
  if r.thrown then r else r.operate case clock op

def run (r : Runner κ μ S E A O) (ops : List (Op κ E A O)) : Runner κ μ S E A O :=
  ops.foldl (step case clock) r

/-- A call made in the operation throws. -/
def raises (r : Runner κ μ S E A O) : Op κ E A O → Bool
  | .loop (.deliver (.frame idx items)) => (r.handItems case clock idx items).thrown
  | .loop (.deliver (.side _)) => false
  | .loop .tick => false
  | .start realtimeNowUs => (r.start case clock realtimeNowUs).thrown

/-- No call made in the run throws. -/
def Calm (r : Runner κ μ S E A O) (ops : List (Op κ E A O)) : Prop :=
  Along (step case clock) (fun r op => r.raises case clock op = false) r ops

end

/-! ## Three ways a step treats items

Each says what becomes of the items up to an exception, and of all of them without one. -/

/-- The machine is called on those of `items` it is to be called on, in order. -/
structure HandedOver (case : Case κ μ S E A O) (items : List (Item E × Int))
    (r r' : Runner κ μ S E A O) : Prop where
  started : r'.started = true
  part : ∃ part, r'.received = r.received ++ part ∧ part.Sublist (machineItems case items)
  all : r'.thrown = false → r.thrown = false ∧ r'.received = r.received ++ machineItems case items

/-- `items` are held, and the machine is not called. -/
structure HeldBack (items : List (Item E × Int)) (r r' : Runner κ μ S E A O) : Prop where
  started : r'.started = false
  sm : r'.sm = r.sm
  trace : r'.trace = r.trace
  moves : r'.moves = r.moves
  part : ∃ part : List (Item E × Int),
    r'.held = r.held ++ part.map (fun i => ⟨i.1, i.2⟩) ∧ part.Sublist items
  all : r'.thrown = false → r.thrown = false ∧ r'.held = r.held ++ items.map fun i => ⟨i.1, i.2⟩

/-- Every observer adopted before is told of the events in `items`, and no other is told anything. -/
structure Told (items : List (Item E × Int)) (r r' : Runner κ μ S E A O) : Prop where
  adopted : r.adopted.length ≤ r'.adopted.length
  notified : r'.thrown = false → r.thrown = false ∧
    ∀ i < r.adopted.length, r'.notifiedTo i = r.notifiedTo i ++ eventsOf items
  untold : (∀ i ≥ r.adopted.length, r.notifiedTo i = []) →
    ∀ i ≥ r'.adopted.length, r'.notifiedTo i = []

section

variable {case : Case κ μ S E A O} {items more : List (Item E × Int)}
  {r r' r'' : Runner κ μ S E A O}

theorem machineItems_append (case : Case κ μ S E A O) (items more : List (Item E × Int)) :
    machineItems case (items ++ more) = machineItems case items ++ machineItems case more :=
  List.filter_append ..

theorem HandedOver.trans (h : HandedOver case items r r') (h' : HandedOver case more r' r'') :
    HandedOver case (items ++ more) r r'' where
  started := h'.started
  part := by
    obtain ⟨part, hpart, hsub⟩ := h.part
    obtain ⟨part', hpart', hsub'⟩ := h'.part
    refine ⟨part ++ part', by rw [hpart', hpart, List.append_assoc], ?_⟩
    rw [machineItems_append]
    exact hsub.append hsub'
  all := by
    intro hthrown
    obtain ⟨hmid, hmore⟩ := h'.all hthrown
    obtain ⟨hbegin, hitems⟩ := h.all hmid
    exact ⟨hbegin, by rw [hmore, hitems, machineItems_append, List.append_assoc]⟩

theorem HeldBack.trans (h : HeldBack items r r') (h' : HeldBack more r' r'') :
    HeldBack (items ++ more) r r'' where
  started := h'.started
  sm := h'.sm.trans h.sm
  trace := h'.trace.trans h.trace
  moves := h'.moves.trans h.moves
  part := by
    obtain ⟨part, hpart, hsub⟩ := h.part
    obtain ⟨part', hpart', hsub'⟩ := h'.part
    exact ⟨part ++ part', by rw [hpart', hpart, List.map_append, List.append_assoc], hsub.append hsub'⟩
  all := by
    intro hthrown
    obtain ⟨hmid, hmore⟩ := h'.all hthrown
    obtain ⟨hbegin, hitems⟩ := h.all hmid
    exact ⟨hbegin, by rw [hmore, hitems, List.map_append, List.append_assoc]⟩

theorem Told.trans (h : Told items r r') (h' : Told more r' r'') : Told (items ++ more) r r'' where
  adopted := Nat.le_trans h.adopted h'.adopted
  notified := by
    intro hthrown
    obtain ⟨hmid, hmore⟩ := h'.notified hthrown
    obtain ⟨hbegin, hitems⟩ := h.notified hmid
    refine ⟨hbegin, fun i hi => ?_⟩
    rw [hmore i (Nat.lt_of_lt_of_le hi h.adopted), hitems i hi, eventsOf, eventsOf, eventsOf,
      List.filterMap_append, List.append_assoc]
  untold := fun hr => h'.untold (h.untold hr)

/-- An exception in flight skips the items. -/
theorem HandedOver.skipped (hr : r.started = true) (hthrown : r.thrown = true) : HandedOver case items r r where
  started := hr
  part := ⟨[], (List.append_nil _).symm, List.nil_sublist _⟩
  all h := absurd (h.symm.trans hthrown) Bool.false_ne_true

theorem HeldBack.skipped (hr : r.started = false) (hthrown : r.thrown = true) : HeldBack items r r where
  started := hr
  sm := rfl
  trace := rfl
  moves := rfl
  part := ⟨[], (List.append_nil _).symm, List.nil_sublist _⟩
  all h := absurd (h.symm.trans hthrown) Bool.false_ne_true

theorem Told.skipped (hthrown : r.thrown = true) : Told items r r where
  adopted := Nat.le_refl _
  notified h := absurd (h.symm.trans hthrown) Bool.false_ne_true
  untold hr := hr

/-- A step in which the machine is called on no item. -/
theorem HandedOver.of_received_eq (hr : r'.started = true) (hthrown : r'.thrown = false → r.thrown = false)
    (hreceived : r'.received = r.received) : HandedOver case [] r r' where
  started := hr
  part := ⟨[], hreceived.trans (List.append_nil _).symm, List.Sublist.refl _⟩
  all h := ⟨hthrown h, hreceived.trans (List.append_nil _).symm⟩

theorem SameRun.received (h : SameRun r r') : r'.received = r.received := by
  unfold Runner.received
  rw [h.moves]

theorem SameRun.heldBack (h : SameRun r r') (hr : r.started = false) (hthrown : r'.thrown = r.thrown) :
    HeldBack [] r r' where
  started := h.started.trans hr
  sm := h.sm
  trace := h.trace
  moves := h.moves
  part := ⟨[], h.held.trans (List.append_nil _).symm, List.Sublist.refl _⟩
  all hnone := ⟨hthrown.symm.trans hnone, h.held.trans (List.append_nil _).symm⟩

/-- A step that tells no observer anything. -/
theorem Told.of_notified_eq (hthrown : r'.thrown = false → r.thrown = false)
    (hadopted : r.adopted.length ≤ r'.adopted.length) (hnotified : r'.notified = r.notified) :
    Told [] r r' where
  adopted := hadopted
  notified := by
    refine fun h => ⟨hthrown h, fun i _ => ?_⟩
    unfold notifiedTo
    rw [hnotified]
    exact (List.append_nil _).symm
  untold := by
    intro hr i hi
    unfold notifiedTo at hr ⊢
    rw [hnotified]
    exact hr i (Nat.le_trans hadopted hi)

theorem HandedOver.andThen {f : Runner κ μ S E A O → Runner κ μ S E A O} (h : HandedOver case items r r')
    (hf : r'.thrown = false → HandedOver case [] r' (f r')) : HandedOver case items r (r'.andThen f) := by
  cases hthrown : r'.thrown with
  | true => rwa [andThen_of_thrown hthrown]
  | false =>
    rw [andThen_of_not_thrown hthrown, ← List.append_nil items]
    exact h.trans (hf hthrown)

theorem Told.andThen {f : Runner κ μ S E A O → Runner κ μ S E A O} (h : Told items r r')
    (hf : r'.thrown = false → Told [] r' (f r')) : Told items r (r'.andThen f) := by
  cases hthrown : r'.thrown with
  | true => rwa [andThen_of_thrown hthrown]
  | false =>
    rw [andThen_of_not_thrown hthrown, ← List.append_nil items]
    exact h.trans (hf hthrown)

/-- **Loop lemma** for a relation that composes along lists and holds of what an exception skips. -/
theorem foldl_andThen {α β : Type} {P : List β → Runner κ μ S E A O → Runner κ μ S E A O → Prop}
    {Q : Runner κ μ S E A O → Prop} {f : α → Runner κ μ S E A O → Runner κ μ S E A O} {g : α → β}
    (hnil : ∀ r, Q r → P [] r r)
    (hcons : ∀ {xs ys r r' r''}, P xs r r' → P ys r' r'' → P (xs ++ ys) r r'')
    (hskip : ∀ r x, Q r → r.thrown = true → P [x] r r)
    (hstep : ∀ r a, Q r → r.thrown = false → P [g a] r (f a r) ∧ Q (f a r))
    (l : List α) {r : Runner κ μ S E A O} (hr : Q r) :
    P (l.map g) r (l.foldl (fun r a => r.andThen (f a)) r) := by
  induction l generalizing r with
  | nil => exact hnil r hr
  | cons a l ih =>
    have hone : P [g a] r (r.andThen (f a)) ∧ Q (r.andThen (f a)) := by
      cases hthrown : r.thrown with
      | true =>
        rw [andThen_of_thrown hthrown]
        exact ⟨hskip r _ hr hthrown, hr⟩
      | false =>
        rw [andThen_of_not_thrown hthrown]
        exact hstep r a hr hthrown
    exact hcons hone.1 (ih hone.2)

theorem Drove.received_item {i : Item E} {idx : Int} {threw : Bool}
    (h : Drove case (.item i) idx threw r r') : r'.received = r.received ++ [(i, idx)] := by
  unfold Runner.received
  rw [h.moves, List.filterMap_append]
  rfl

theorem Drove.received_tick (h : Drove case .tick (-1) false r r') : r'.received = r.received := by
  unfold Runner.received
  rw [h.moves, List.filterMap_append]
  exact List.append_nil _

theorem Drove.received_settled {threw : Bool} (h : Drove case .settled (-1) threw r r') :
    r'.received = r.received := by
  unfold Runner.received
  rw [h.moves, List.filterMap_append]
  exact List.append_nil _

/-! ## Observers -/

/-- Telling the observers is nothing to the machine. -/
theorem fanOutItem_same (case : Case κ μ S E A O) (i : Item E) (r : Runner κ μ S E A O) :
    (r.fanOutItem case i).started = r.started ∧ (r.fanOutItem case i).received = r.received ∧
      (r.fanOutItem case i).nextPcapFrameIdx = r.nextPcapFrameIdx ∧ (r.fanOutItem case i).held = r.held := by
  cases i <;> exact ⟨rfl, rfl, rfl, rfl⟩

/-- A fan-out keeps the observers in their places and tells none beside them. -/
theorem fanOutFrom_spec (case : Case κ μ S E A O) (ev : E) (os : List O) (k : Nat) :
    (fanOutFrom case ev k os).adopted.length = os.length ∧
      (∀ n ∈ (fanOutFrom case ev k os).told, n.1 < k + os.length) ∧
      ((fanOutFrom case ev k os).threw = false →
        (fanOutFrom case ev k os).told = (List.range' k os.length).map fun j => (j, ev)) := by
  induction os generalizing k with
  | nil => exact ⟨rfl, by simp [fanOutFrom], fun _ => rfl⟩
  | cons o os ih =>
    obtain ⟨hlen, hbelow, htold⟩ := ih (k + 1)
    rcases hcall : case.onCapturedFrame o ev with ⟨o', threw⟩
    cases threw with
    | true => simp [fanOutFrom, hcall]
    | false =>
      simp only [fanOutFrom, hcall, List.length_cons, hlen, List.mem_cons, forall_eq_or_imp, true_and]
      refine ⟨⟨by omega, fun n hn => ?_⟩, fun hthrew => ?_⟩
      · have := hbelow n hn
        omega
      · rw [htold hthrew, List.range'_succ]
        rfl

/-- The positions below `n` that are `i`, told of `ev`. -/
theorem filterMap_range_eq (ev : E) (i n : Nat) :
    ((List.range n).map fun j => (j, ev)).filterMap
      (fun m => if m.1 = i then some m.2 else none) = if i < n then [ev] else [] := by
  induction n with
  | zero => rfl
  | succ n ih =>
    rw [List.range_succ, List.map_append, List.filterMap_append, ih]
    rcases Nat.lt_trichotomy i n with hlt | heq | hgt
    · simp [hlt, Nat.lt_succ_of_lt hlt, Nat.ne_of_gt hlt]
    · simp [heq]
    · have hnot : ¬ i < n + 1 := by omega
      simp [Nat.lt_asymm hgt, hnot, Nat.ne_of_lt hgt]

/-- A fan-out tells every adopted observer once. -/
theorem fanOutItem_told (case : Case κ μ S E A O) (i : Item E) (idx : Int) (hthrown : r.thrown = false) :
    Told [(i, idx)] r (r.fanOutItem case i) := by
  cases i with
  | marker name =>
    exact ⟨Nat.le_refl _, fun _ => ⟨hthrown, fun i _ => (List.append_nil _).symm⟩, fun hr => hr⟩
  | event ev =>
    obtain ⟨hlen, hbelow, htold⟩ := fanOutFrom_spec case ev r.adopted 0
    have hlen' : (r.fanOutItem case (.event ev)).adopted.length = r.adopted.length := hlen
    have hnotified : ∀ i, (r.fanOutItem case (.event ev)).notifiedTo i = r.notifiedTo i ++
        (fanOutFrom case ev 0 r.adopted).told.filterMap fun n => if n.1 = i then some n.2 else none := by
      intro i
      exact List.filterMap_append ..
    refine ⟨Nat.le_of_eq hlen'.symm, fun hnone => ⟨hthrown, fun i hi => ?_⟩, fun hr i hi => ?_⟩
    · rw [hnotified, htold hnone, ← List.range_eq_range', filterMap_range_eq, if_pos hi]
      rfl
    · rw [hlen'] at hi
      rw [hnotified, hr i hi, List.nil_append, List.filterMap_eq_nil_iff]
      intro n hn
      have := hbelow n hn
      rw [if_neg (by omega)]

end

section

variable [DecidableEq S] {case : Case κ μ S E A O} {clock : Nat → Int}

/-! ## One item, one frame, one delivery -/

theorem handItem_started (r : Runner κ μ S E A O) (i : Item E) :
    (r.handItem clock case i).started = r.started := by
  cases hi : reachesMachine case i with
  | true =>
    obtain ⟨_, hdrove⟩ := handItem_drove clock case hi r
    exact hdrove.started
  | false => rw [handItem_of_not_reaches clock case hi]

/-- The machine is called on an item it is to be called on, with the index in the slot. -/
theorem handItem_received (r : Runner κ μ S E A O) (i : Item E) :
    (r.handItem clock case i).received =
      r.received ++ machineItems case [(i, r.nextPcapFrameIdx)] := by
  cases hi : reachesMachine case i with
  | true =>
    obtain ⟨_, hdrove⟩ := handItem_drove clock case hi r
    rw [hdrove.received_item]
    simp [machineItems, hi]
  | false =>
    rw [handItem_of_not_reaches clock case hi]
    simp [machineItems, hi]

theorem handItem_handedOver {r : Runner κ μ S E A O} (hr : r.started = true) (hthrown : r.thrown = false)
    (i : Item E) : HandedOver case [(i, r.nextPcapFrameIdx)] r (r.handItem clock case i) where
  started := (handItem_started r i).trans hr
  part := ⟨_, handItem_received r i, List.Sublist.refl _⟩
  all _ := ⟨hthrown, handItem_received r i⟩

theorem handItem_told {r : Runner κ μ S E A O} (hthrown : r.thrown = false) (i : Item E) :
    Told [] r (r.handItem clock case i) := by
  cases hi : reachesMachine case i with
  | true =>
    obtain ⟨_, hdrove⟩ := handItem_drove clock case hi r
    exact Told.of_notified_eq (fun _ => hthrown) hdrove.adopted hdrove.notified
  | false =>
    rw [handItem_of_not_reaches clock case hi]
    exact Told.of_notified_eq id (Nat.le_refl _) rfl

theorem onItem_handedOver {r : Runner κ μ S E A O} (hr : r.started = true) (hthrown : r.thrown = false)
    (i : Item E) : HandedOver case [(i, r.nextPcapFrameIdx)] r (r.onItem case clock i) := by
  rw [onItem_started clock case hr]
  have hitem : HandedOver case [(i, r.nextPcapFrameIdx)] r (r.handItem clock case i) :=
    handItem_handedOver hr hthrown i
  refine hitem.andThen fun hnone => ?_
  obtain ⟨hstarted, hreceived, -⟩ := fanOutItem_same case i (r.handItem clock case i)
  exact HandedOver.of_received_eq (hstarted.trans hitem.started) (fun _ => hnone) hreceived

theorem onItem_heldBack {r : Runner κ μ S E A O} (hr : r.started = false) (hthrown : r.thrown = false)
    (i : Item E) : HeldBack [(i, r.nextPcapFrameIdx)] r (r.onItem case clock i) := by
  rw [onItem_not_started clock case hr]
  have hheld : ((r.hold i).fanOutItem case i).held =
      r.held ++ [(i, r.nextPcapFrameIdx)].map fun i => ⟨i.1, i.2⟩ := (fanOutItem_same case i (r.hold i)).2.2.2
  cases i <;>
    exact ⟨hr, rfl, rfl, rfl, ⟨_, hheld, List.Sublist.refl _⟩, fun _ => ⟨hthrown, hheld⟩⟩

theorem onItem_told {r : Runner κ μ S E A O} (hthrown : r.thrown = false) (i : Item E) (idx : Int) :
    Told [(i, idx)] r (r.onItem case clock i) := by
  cases hr : r.started with
  | false =>
    rw [onItem_not_started clock case hr]
    have hhold : Told [] r (r.hold i) := Told.of_notified_eq (fun _ => hthrown) (Nat.le_refl _) rfl
    exact hhold.trans (fanOutItem_told case i idx hthrown)
  | true =>
    rw [onItem_started clock case hr]
    have hitem : Told [] r (r.handItem clock case i) := handItem_told hthrown i
    cases hnone : (r.handItem clock case i).thrown with
    | true =>
      rw [andThen_of_thrown hnone]
      exact ⟨hitem.adopted, fun h => absurd (h.symm.trans hnone) Bool.false_ne_true, hitem.untold⟩
    | false =>
      rw [andThen_of_not_thrown hnone]
      exact hitem.trans (fanOutItem_told case i idx hnone)

theorem onItem_nextPcapFrameIdx (r : Runner κ μ S E A O) (i : Item E) :
    (r.onItem case clock i).nextPcapFrameIdx = r.nextPcapFrameIdx := by
  cases hr : r.started with
  | false =>
    rw [onItem_not_started clock case hr, (fanOutItem_same case i _).2.2.1]
    rfl
  | true =>
    rw [onItem_started clock case hr]
    have hitem : (r.handItem clock case i).nextPcapFrameIdx = r.nextPcapFrameIdx := by
      cases hi : reachesMachine case i with
      | true =>
        obtain ⟨_, hdrove⟩ := handItem_drove clock case hi r
        exact hdrove.nextPcapFrameIdx
      | false => rw [handItem_of_not_reaches clock case hi]
    unfold andThen
    split
    · exact hitem
    · exact (fanOutItem_same case i _).2.2.1.trans hitem

theorem handItems_handedOver {r : Runner κ μ S E A O} (hr : r.started = true) (idx : Int)
    (items : List (Item E)) :
    HandedOver case (items.map fun i => (i, idx)) r (r.handItems case clock idx items) := by
  have hitems := foldl_andThen (P := HandedOver case) (f := onItem case clock)
    (Q := fun r => r.started = true ∧ r.nextPcapFrameIdx = idx) (g := fun i => (i, idx))
    (fun r hr => HandedOver.of_received_eq hr.1 id rfl) HandedOver.trans
    (fun r x hr => HandedOver.skipped hr.1)
    (fun r i hr hthrown => by
      have hitem : HandedOver case [(i, r.nextPcapFrameIdx)] r (r.onItem case clock i) :=
        onItem_handedOver hr.1 hthrown i
      rw [hr.2] at hitem
      exact ⟨hitem, hitem.started, (onItem_nextPcapFrameIdx r i).trans hr.2⟩)
    items (r := r.setNextPcapFrameIdx idx) ⟨hr, rfl⟩
  exact ⟨hitems.started, hitems.part, hitems.all⟩

theorem handItems_heldBack {r : Runner κ μ S E A O} (hr : r.started = false) (idx : Int)
    (items : List (Item E)) :
    HeldBack (items.map fun i => (i, idx)) r (r.handItems case clock idx items) := by
  have hitems := foldl_andThen (P := HeldBack) (f := onItem case clock)
    (Q := fun r => r.started = false ∧ r.nextPcapFrameIdx = idx) (g := fun i => (i, idx))
    (fun r hr => (SameRun.refl r).heldBack hr.1 rfl) HeldBack.trans
    (fun r x hr => HeldBack.skipped hr.1)
    (fun r i hr hthrown => by
      have hitem : HeldBack [(i, r.nextPcapFrameIdx)] r (r.onItem case clock i) :=
        onItem_heldBack hr.1 hthrown i
      rw [hr.2] at hitem
      exact ⟨hitem, hitem.started, (onItem_nextPcapFrameIdx r i).trans hr.2⟩)
    items (r := r.setNextPcapFrameIdx idx) ⟨hr, rfl⟩
  exact ⟨hitems.started, hitems.sm, hitems.trace, hitems.moves, hitems.part, hitems.all⟩

theorem handItems_told (r : Runner κ μ S E A O) (idx : Int) (items : List (Item E)) :
    Told (items.map fun i => (i, idx)) r (r.handItems case clock idx items) := by
  have hitems := foldl_andThen (P := Told) (f := onItem case clock) (Q := fun _ => True)
    (g := fun i => (i, idx)) (fun r _ => Told.of_notified_eq id (Nat.le_refl _) rfl) Told.trans
    (fun r x _ => Told.skipped) (fun r i _ hthrown => ⟨onItem_told hthrown i idx, trivial⟩)
    items (r := r.setNextPcapFrameIdx idx) trivial
  exact ⟨hitems.adopted, hitems.notified, hitems.untold⟩

/-- A frame that throws nothing leaves nothing to catch. -/
theorem onFrame_eq {r : Runner κ μ S E A O} {idx : Int} {items : List (Item E)}
    (h : (r.handItems case clock idx items).thrown = false) :
    r.onFrame case clock idx items = r.handItems case clock idx items := by
  rw [onFrame, ← h]

theorem deliver_frame_eq {r : Runner κ μ S E A O} {idx : Int} {items : List (Item E)}
    (hcalm : r.raises case clock (.loop (.deliver (.frame idx items))) = false) :
    r.deliver case clock (.frame idx items) = r.handItems case clock idx items := onFrame_eq hcalm

theorem deliver_handedOver {r : Runner κ μ S E A O} (hr : r.started = true) {d : Delivery κ E A O}
    (hcalm : r.raises case clock (.loop (.deliver d)) = false) :
    HandedOver case d.items r (r.deliver case clock d) := by
  cases d with
  | frame idx items =>
    rw [deliver_frame_eq hcalm]
    exact handItems_handedOver hr idx items
  | side op =>
    have hsame := aside_same clock r op
    exact HandedOver.of_received_eq (hsame.started.trans hr) (fun h => (aside_thrown clock r op).symm.trans h)
      hsame.received

theorem deliver_heldBack {r : Runner κ μ S E A O} (hr : r.started = false) {d : Delivery κ E A O}
    (hcalm : r.raises case clock (.loop (.deliver d)) = false) :
    HeldBack d.items r (r.deliver case clock d) := by
  cases d with
  | frame idx items =>
    rw [deliver_frame_eq hcalm]
    exact handItems_heldBack hr idx items
  | side op => exact (aside_same clock r op).heldBack hr (aside_thrown clock r op)

theorem deliver_told {r : Runner κ μ S E A O} {d : Delivery κ E A O}
    (hcalm : r.raises case clock (.loop (.deliver d)) = false) : Told d.items r (r.deliver case clock d) := by
  cases d with
  | frame idx items =>
    rw [deliver_frame_eq hcalm]
    exact handItems_told r idx items
  | side op =>
    have hsame := aside_same clock r op
    exact Told.of_notified_eq (fun h => (aside_thrown clock r op).symm.trans h) hsame.adopted hsame.notified

/-! ## `start` -/

/-- The replay hands every held item to the machine, each under its own index. -/
theorem foldl_replay_handedOver {r : Runner κ μ S E A O} (hr : r.started = true)
    (held : List (Held E)) :
    HandedOver case (held.map fun h => (h.item, h.pcapFrameIdx)) r
      (held.foldl (fun r h => r.andThen (replay case clock h)) r) := by
  refine foldl_andThen (Q := fun r => r.started = true)
    (fun r hr => HandedOver.of_received_eq hr id rfl) HandedOver.trans
    (fun r x hr => HandedOver.skipped hr) (fun r h hr hthrown => ?_) held hr
  have hone : HandedOver case [(h.item, h.pcapFrameIdx)] (r.setNextPcapFrameIdx h.pcapFrameIdx)
      ((r.setNextPcapFrameIdx h.pcapFrameIdx).handItem clock case h.item) :=
    handItem_handedOver (r := r.setNextPcapFrameIdx h.pcapFrameIdx) hr hthrown h.item
  rw [replay_eq]
  exact ⟨⟨hone.started, hone.part, hone.all⟩, hone.started⟩

theorem foldl_replay_told (r : Runner κ μ S E A O) (held : List (Held E)) :
    Told [] r (held.foldl (fun r h => r.andThen (replay case clock h)) r) := by
  refine foldl_andThen (P := fun (_ : List Unit) => Told []) (Q := fun _ => True) (g := fun _ => ())
    (fun r _ => Told.of_notified_eq id (Nat.le_refl _) rfl) Told.trans (fun r _ _ => Told.skipped)
    (fun r h _ hthrown => ⟨?_, trivial⟩) held trivial
  have hone : Told [] (r.setNextPcapFrameIdx h.pcapFrameIdx)
      ((r.setNextPcapFrameIdx h.pcapFrameIdx).handItem clock case h.item) :=
    handItem_told (r := r.setNextPcapFrameIdx h.pcapFrameIdx) hthrown h.item
  rw [replay_eq]
  exact ⟨hone.adopted, hone.notified, hone.untold⟩

theorem settleStimulus_handedOver {r : Runner κ μ S E A O} (hr : r.started = true) (hthrown : r.thrown = false) :
    HandedOver case [] r (r.settleStimulus case clock) := by
  rcases settleStimulus_cases clock case r with hsame | ⟨_, hdrove⟩
  · exact HandedOver.of_received_eq (hsame.started.trans hr) (fun _ => hthrown) hsame.received
  · exact HandedOver.of_received_eq (hdrove.started.trans hr) (fun _ => hthrown) hdrove.received_settled

theorem settleStimulus_told {r : Runner κ μ S E A O} (hthrown : r.thrown = false) :
    Told [] r (r.settleStimulus case clock) := by
  rcases settleStimulus_cases clock case r with hsame | ⟨_, hdrove⟩
  · exact Told.of_notified_eq (fun _ => hthrown) hsame.adopted hsame.notified
  · exact Told.of_notified_eq (fun _ => hthrown) hdrove.adopted hdrove.notified

/-- `start` hands over what is held, and nothing else. -/
theorem start_handedOver (r : Runner κ μ S E A O) (realtimeNowUs : Int) :
    HandedOver case (r.held.map fun h => (h.item, h.pcapFrameIdx)) r
      (r.start case clock realtimeNowUs) := by
  have hinit : (r.initialized case clock realtimeNowUs).started = true := rfl
  have hreplay : HandedOver case (r.held.map fun h => (h.item, h.pcapFrameIdx)) r
      (r.held.foldl (fun r h => r.andThen (replay case clock h)) (r.initialized case clock realtimeNowUs)) := by
    obtain ⟨hstarted, hpart, hall⟩ := @foldl_replay_handedOver κ μ S E A O _ case clock _ hinit r.held
    exact ⟨hstarted, hpart, hall⟩
  have hrelease := hreplay.andThen (f := fun r => { r with held := [] })
    fun hnone => HandedOver.of_received_eq hreplay.started (fun _ => hnone) rfl
  have hslot := hrelease.andThen (f := setNextPcapFrameIdx (-1))
    fun hnone => HandedOver.of_received_eq hrelease.started (fun _ => hnone) rfl
  exact hslot.andThen fun hnone => settleStimulus_handedOver hslot.started hnone

theorem start_told (r : Runner κ μ S E A O) (realtimeNowUs : Int) :
    Told [] r (r.start case clock realtimeNowUs) := by
  have hreplay : Told [] r
      (r.held.foldl (fun r h => r.andThen (replay case clock h)) (r.initialized case clock realtimeNowUs)) := by
    obtain ⟨hadopted, hnotified, huntold⟩ := @foldl_replay_told κ μ S E A O _ case clock
      (r.initialized case clock realtimeNowUs) r.held
    exact ⟨hadopted, hnotified, huntold⟩
  have hrelease := hreplay.andThen (f := fun r => { r with held := [] })
    fun hnone => Told.of_notified_eq (fun _ => hnone) (Nat.le_refl _) rfl
  have hslot := hrelease.andThen (f := setNextPcapFrameIdx (-1))
    fun hnone => Told.of_notified_eq (fun _ => hnone) (Nat.le_refl _) rfl
  exact hslot.andThen fun hnone => settleStimulus_told hnone

/-! ## Whole runs -/

variable (case clock) in
theorem step_of_not_thrown {r : Runner κ μ S E A O} (h : r.thrown = false) (op : Op κ E A O) :
    r.step case clock op = r.operate case clock op :=
  if_neg (by rw [h]; exact Bool.false_ne_true)

/-- A step that raises nothing leaves nothing in flight. -/
theorem step_thrown {r : Runner κ μ S E A O} (h : r.thrown = false) {op : Op κ E A O}
    (hcalm : r.raises case clock op = false) : (r.step case clock op).thrown = false := by
  rw [step_of_not_thrown case clock h]
  match op with
  | .loop (.deliver (.frame idx items)) => rfl
  | .loop (.deliver (.side op)) => exact (aside_thrown clock r op).trans h
  | .loop .tick => exact tick_thrown clock case r
  | .start realtimeNowUs => exact hcalm

theorem run_append (r : Runner κ μ S E A O) (ops more : List (Op κ E A O)) :
    r.run case clock (ops ++ more) = (r.run case clock ops).run case clock more :=
  List.foldl_append

theorem run_thrown {r : Runner κ μ S E A O} (h : r.thrown = false) {ops : List (Op κ E A O)}
    (hcalm : Calm case clock r ops) : (r.run case clock ops).thrown = false := by
  induction ops generalizing r with
  | nil => exact h
  | cons op ops ih => exact ih (step_thrown h hcalm.head) hcalm.tail

theorem run_loop_handedOver {r : Runner κ μ S E A O} (hr : r.started = true) (hthrown : r.thrown = false)
    {ops : List (LoopOp κ E A O)} (hcalm : Calm case clock r (ops.map .loop)) :
    HandedOver case (ops.flatMap LoopOp.items) r (r.run case clock (ops.map .loop)) := by
  induction ops generalizing r with
  | nil => exact HandedOver.of_received_eq hr id rfl
  | cons op ops ih =>
    have hone : HandedOver case op.items r (r.step case clock (.loop op)) := by
      rw [step_of_not_thrown case clock hthrown]
      cases op with
      | deliver d => exact deliver_handedOver hr hcalm.head
      | tick =>
        have hdrove := tick_drove clock case r
        exact HandedOver.of_received_eq (hdrove.started.trans hr) (fun _ => hthrown) hdrove.received_tick
    exact hone.trans (ih hone.started (step_thrown hthrown hcalm.head) hcalm.tail)

theorem run_deliver_heldBack {r : Runner κ μ S E A O} (hr : r.started = false) (hthrown : r.thrown = false)
    {ds : List (Delivery κ E A O)} (hcalm : Calm case clock r (ds.map fun d => .loop (.deliver d))) :
    HeldBack (ds.flatMap Delivery.items) r
      (r.run case clock (ds.map fun d => .loop (.deliver d))) := by
  induction ds generalizing r with
  | nil => exact (SameRun.refl r).heldBack hr rfl
  | cons d ds ih =>
    have hone : HeldBack d.items r (r.step case clock (.loop (.deliver d))) := by
      rw [step_of_not_thrown case clock hthrown]
      exact deliver_heldBack hr hcalm.head
    exact hone.trans (ih hone.started (step_thrown hthrown hcalm.head) hcalm.tail)

theorem run_told {r : Runner κ μ S E A O} (hthrown : r.thrown = false) {ops : List (Op κ E A O)}
    (hcalm : Calm case clock r ops) : Told (ops.flatMap Op.items) r (r.run case clock ops) := by
  induction ops generalizing r with
  | nil => exact Told.of_notified_eq id (Nat.le_refl _) rfl
  | cons op ops ih =>
    have hone : Told op.items r (r.step case clock op) := by
      have hhead := hcalm.head
      rw [step_of_not_thrown case clock hthrown]
      match op with
      | .start realtimeNowUs => exact start_told r realtimeNowUs
      | .loop (.deliver d) => exact deliver_told hhead
      | .loop .tick =>
        have hdrove := tick_drove clock case r
        exact Told.of_notified_eq (fun _ => hthrown) hdrove.adopted hdrove.notified
    exact hone.trans (ih (step_thrown hthrown hcalm.head) hcalm.tail)

/-- What the machine is called on when `start` comes after `before`. -/
theorem received_heldOps {captured : κ} {sm : μ} {before : List (Delivery κ E A O)}
    {realtimeNowUs : Int} {after : List (LoopOp κ E A O)}
    (hcalm : Calm case clock (fresh captured sm) (heldOps before realtimeNowUs after)) :
    ((fresh captured sm).run case clock (heldOps before realtimeNowUs after)).received =
      machineItems case (before.flatMap Delivery.items ++ after.flatMap LoopOp.items) := by
  have hwait := @run_deliver_heldBack κ μ S E A O _ case clock (fresh captured sm) rfl rfl before hcalm.left
  -- The runner when `start` is called.
  have hthrown : ((fresh captured sm).run case clock (before.map fun d => .loop (.deliver d))).thrown = false :=
    run_thrown rfl hcalm.left
  have hheld := (hwait.all hthrown).2
  have hrest : Calm case clock ((fresh captured sm).run case clock (before.map fun d => .loop (.deliver d)))
      (.start realtimeNowUs :: after.map .loop) := hcalm.right
  rw [heldOps, run_append]
  generalize (fresh captured sm).run case clock (before.map fun d => .loop (.deliver d)) = r
    at hwait hthrown hheld hrest ⊢
  have hstart : HandedOver case (r.held.map fun h => (h.item, h.pcapFrameIdx)) r
      (r.step case clock (.start realtimeNowUs)) := by
    rw [step_of_not_thrown case clock hthrown]
    exact start_handedOver r realtimeNowUs
  have hstarted := step_thrown hthrown hrest.head
  have hloop := run_loop_handedOver hstart.started hstarted hrest.tail
  have hall := ((hstart.trans hloop).all (run_thrown hstarted hrest.tail)).2
  have hitems : r.held.map (fun h => (h.item, h.pcapFrameIdx)) = before.flatMap Delivery.items := by
    rw [hheld]
    exact (List.map_map ..).trans (List.map_id _)
  have hnone : r.received = [] := by
    unfold received
    rw [hwait.moves]
    rfl
  rw [hitems, hnone, List.nil_append] at hall
  exact hall

/-- What the machine is called on when `start` comes first. -/
theorem received_liveOps {captured : κ} {sm : μ} {before : List (Delivery κ E A O)}
    {realtimeNowUs : Int} {after : List (LoopOp κ E A O)}
    (hcalm : Calm case clock (fresh captured sm) (liveOps before realtimeNowUs after)) :
    ((fresh captured sm).run case clock (liveOps before realtimeNowUs after)).received =
      machineItems case (before.flatMap Delivery.items ++ after.flatMap LoopOp.items) := by
  have hops : before.map (fun d => Op.loop (.deliver d)) ++ after.map .loop =
      (before.map LoopOp.deliver ++ after).map Op.loop := by
    rw [List.map_append, List.map_map]
    rfl
  have hitems : (before.map LoopOp.deliver ++ after).flatMap LoopOp.items =
      before.flatMap Delivery.items ++ after.flatMap LoopOp.items := by
    rw [List.flatMap_append, List.flatMap_map]
    rfl
  rw [liveOps, hops] at hcalm ⊢
  have hstart : HandedOver case [] (fresh captured sm)
      ((fresh captured sm).step case clock (.start realtimeNowUs)) :=
    @start_handedOver κ μ S E A O _ case clock (fresh captured sm) realtimeNowUs
  have hstarted : ((fresh captured sm).step case clock (.start realtimeNowUs)).thrown = false :=
    step_thrown rfl hcalm.head
  have hloop := run_loop_handedOver hstart.started hstarted hcalm.tail
  rw [← hitems]
  exact ((hstart.trans hloop).all (run_thrown hstarted hcalm.tail)).2

/-- The run with `start` after `before` is, to the machine and to the observers, the run with `start`
in front. -/
structure HoldingInvisible (case : Case κ μ S E A O) (clock : Nat → Int) (captured : κ) (sm : μ)
    (before : List (Delivery κ E A O)) (realtimeNowUs : Int) (after : List (LoopOp κ E A O)) :
    Prop where
  /-- The machine is called on the same items, in the same order, under the same indices. -/
  sameItems : ((fresh captured sm).run case clock (heldOps before realtimeNowUs after)).received =
    ((fresh captured sm).run case clock (liveOps before realtimeNowUs after)).received
  /-- These are the captured items, each once, in capture order, under its own index. -/
  eachOnce : ((fresh captured sm).run case clock (heldOps before realtimeNowUs after)).received =
    machineItems case (before.flatMap Delivery.items ++ after.flatMap LoopOp.items)
  /-- Before `start` the machine is not called at all. -/
  noneBeforeStart :
    ((fresh captured sm).run case clock (before.map fun d => .loop (.deliver d))).moves = []
  /-- From its adoption on, an observer is told of every event once and in order; before it, of
  none. -/
  observersTold : ∀ pre post, heldOps before realtimeNowUs after = pre ++ post → ∀ i,
    (i < ((fresh captured sm).run case clock pre).adopted.length →
      ((fresh captured sm).run case clock (heldOps before realtimeNowUs after)).notifiedTo i =
        ((fresh captured sm).run case clock pre).notifiedTo i ++ eventsOf (post.flatMap Op.items)) ∧
    (((fresh captured sm).run case clock pre).adopted.length ≤ i →
      ((fresh captured sm).run case clock pre).notifiedTo i = [])

/-- **Holding is invisible** where no call throws: for every case, every sequence of frames, markers and
registrations and every point at which `start` is called. -/
theorem holding_invisible (case : Case κ μ S E A O) (clock : Nat → Int) (captured : κ) (sm : μ)
    (before : List (Delivery κ E A O)) (realtimeNowUs : Int) (after : List (LoopOp κ E A O))
    (hheld : Calm case clock (fresh captured sm) (heldOps before realtimeNowUs after))
    (hlive : Calm case clock (fresh captured sm) (liveOps before realtimeNowUs after)) :
    HoldingInvisible case clock captured sm before realtimeNowUs after where
  sameItems := by rw [received_heldOps hheld, received_liveOps hlive]
  eachOnce := received_heldOps hheld
  noneBeforeStart := (run_deliver_heldBack rfl rfl hheld.left).moves
  observersTold := by
    intro pre post hsplit i
    rw [hsplit] at hheld
    have hthrown : ((fresh captured sm).run case clock pre).thrown = false := run_thrown rfl hheld.left
    constructor
    · intro hi
      have htold := run_told hthrown hheld.right
      rw [hsplit, run_append]
      exact (htold.notified (run_thrown hthrown hheld.right)).2 i hi
    · intro hi
      exact (run_told (r := fresh captured sm) rfl hheld.left).untold (fun _ _ => rfl) i hi

end

/-! ## A frame that throws -/

/-- A machine that adds up the events it is handed, and throws on a 7. -/
def addingCase : Case Unit Nat Nat Nat Unit Unit where
  smInitialize captured sm := (captured, sm)
  getCurrentState sm := sm
  getStateName s := if s = 0 then "zero" else "more"
  stateId s := s
  isFinalState _ := false
  dispatch captured sm ev := ⟨captured, sm + ev, ev == 7⟩
  eventNameForFrame _ := "frame"
  onStimulusApplied := none
  onStimulusSettled := none
  smTick captured sm := (captured, sm)
  perform _ captured := (captured, [])
  react _ captured _ := { captured := captured }
  onCapturedFrame o _ := (o, false)
  setListenWindowOpen captured _ := captured
  capturedJson _ := ""

def eventFrame (idx : Int) (ev : Nat) : Delivery Unit Nat Unit Unit := .frame idx [.event ev]

/-- Two frames are drained by the stimulus, and `start` hands them over. -/
theorem holding_invisible_two_frames :
    HoldingInvisible addingCase (fun n => n) () 0 [eventFrame 0 1, eventFrame 1 2] 0 [] :=
  holding_invisible addingCase (fun n => n) () 0 _ 0 _ (.cons rfl (.cons rfl (.cons rfl along_nil)))
    (.cons rfl (.cons rfl (.cons rfl along_nil)))

/-- The first of two held frames throws: `start` ends there, and the machine is not called on the second,
which it is called on when `start` comes first. -/
theorem holding_visible_thrown :
    ¬ HoldingInvisible addingCase (fun n => n) () 0 [eventFrame 0 7, eventFrame 1 2] 0 [] := by
  intro h
  exact absurd h.sameItems (by decide)

end Runner

end Tc8Harness.Sce
