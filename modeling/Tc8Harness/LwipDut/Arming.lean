import Tc8Harness.Lib.Observe
import Tc8Harness.LwipDut.IngressFault

/-!
# What an arm forgets

`setIngressFaultFlavor` clears the memory that one case could leave to the next. `visible` is the part of
the hook's state that a later frame can still see; a frame leads to the same effects from two states that
show the same (`ingressFaultInput_visible`), so two histories are told apart after an arm only by what the
arm leaves of them. That is the anchor of the normalising flavor, which is a static of the input hook and
out of the arm's reach (`forgets_iff`).
-/

namespace Tc8Harness.LwipDut

open BigEndian Wire Someip ByteBuffer Observe

namespace Hook

variable {σ : Type} (lwip : Stack σ)

/-! ## Runs -/

/-- A frame, and what the stack does on its own before the frame arrives. -/
structure Arrival (σ : Type) where
  before : σ → σ := id
  frame : Pbuf

inductive Event (σ : Type) where
  | arrival (a : Arrival σ)
  | arm (flavor : UInt8)

def arrive (s : Hook σ) (a : Arrival σ) : Hook σ :=
  { s with stack := a.before s.stack }.ingressFaultInput lwip a.frame

def step (s : Hook σ) : Event σ → Hook σ
  | .arrival a => s.arrive lwip a
  | .arm flavor => s.setIngressFaultFlavor flavor

/-- The hook after a history that begins with the DUT's start. -/
def after (boot : σ) (history : List (Event σ)) : Hook σ :=
  history.foldl (step lwip) { stack := boot }

/-- What becomes of the frames, in order. -/
def behaviour (s : Hook σ) (later : List (Arrival σ)) : List Effect :=
  observe (arrive lwip) (fun s a => (s.arrive lwip a).effects) s later

/-! ## What a later frame can see -/

/-- The state without the counters, the stale bytes behind the held fragment, and an anchor that no
branch of the armed flavor reads. -/
def visible (s : Hook σ) : Hook σ :=
  { s with rxFrames := 0, rxIpv4Frags := 0, inputRefused := 0,
           heldFragment := s.heldFragment.take s.heldFragmentLen,
           anchor := if s.flavor = kIpv4FaultNormaliseFragTuple then s.anchor else none }

section Visible

variable (s : Hook σ) (p : Pbuf) (rx : List UInt8)

theorem visible_visible : s.visible.visible = s.visible := by
  by_cases h : s.flavor = kIpv4FaultNormaliseFragTuple <;> simp [visible, h, List.take_take]

@[simp] theorem visible_flavor : s.visible.flavor = s.flavor := rfl

@[simp] theorem visible_stack : s.visible.stack = s.stack := rfl

theorem visible_linkoutput : s.visible.linkoutput lwip rx = (s.linkoutput lwip rx).visible := by
  unfold linkoutput
  rw [visible_stack]
  cases lwip.pbufAlloc s.stack rx.length with
  | mk allocated stack => cases allocated <;> rfl

theorem visible_emitTcpReply (srcPort dstPort : UInt16) (flags : UInt8) :
    s.visible.emitTcpReply lwip rx srcPort dstPort flags =
      (s.emitTcpReply lwip rx srcPort dstPort flags).visible :=
  s.visible_linkoutput lwip _

theorem visible_emitSrcPortBlindAck :
    s.visible.emitSrcPortBlindAck lwip rx = (s.emitSrcPortBlindAck lwip rx).visible := by
  unfold emitSrcPortBlindAck
  simp only [visible_stack]
  split
  · rfl
  · exact s.visible_emitTcpReply lwip rx _ _ _

theorem visible_noteControlPeer : s.visible.noteControlPeer p = (s.noteControlPeer p).visible := by
  unfold noteControlPeer
  dsimp only
  split
  · rfl
  split <;> rfl

theorem visible_senderAlreadyTaught : s.visible.senderAlreadyTaught rx =
    ((s.senderAlreadyTaught rx).1, (s.senderAlreadyTaught rx).2.visible) := by
  cases s
  simp only [senderAlreadyTaught, visible]
  split <;> rfl

/-- The stale bytes a held fragment is written over do not matter. -/
theorem visible_hold (fragment : List UInt8) :
    { s.visible with heldFragment := writeAt s.visible.heldFragment 0 fragment,
                     heldFragmentLen := fragment.length }.visible =
      { s with heldFragment := writeAt s.heldFragment 0 fragment,
               heldFragmentLen := fragment.length }.visible := by
  by_cases h : s.flavor = kIpv4FaultNormaliseFragTuple <;> simp [visible, h, take_writeAt_zero]

/-- Once it is released, a held fragment leaves nothing. -/
theorem visible_release (stack : σ) (effects : List Effect) :
    { s.visible with heldFragmentLen := 0, stack, effects }.visible =
      { s with heldFragmentLen := 0, stack, effects }.visible := by
  by_cases h : s.flavor = kIpv4FaultNormaliseFragTuple <;> simp [visible, h]

/-- What a reaction leaves, as a later frame can see it. -/
def shown (out : Hook σ × Option Pbuf) : Hook σ × Option Pbuf := (out.1.visible, out.2)

end Visible

section Shown

variable {s t : Hook σ} {p : Pbuf} {a b a' b' : Hook σ × Option Pbuf}

theorem shown_pass (h : t = s.visible) : shown (t, some p) = shown (s, some p) := by
  rw [h, shown, shown, visible_visible]

theorem shown_swallow_congr (h : t.visible = s.visible) :
    shown (t.swallow lwip p) = shown (s.swallow lwip p) := by
  have hcommutes : ∀ u : Hook σ, shown (u.swallow lwip p) = u.visible.swallow lwip p := fun _ => rfl
  rw [hcommutes, hcommutes, h]

theorem shown_swallow : shown (s.visible.swallow lwip p) = shown (s.swallow lwip p) :=
  shown_swallow_congr lwip s.visible_visible

/-- Where the frame and the flavor choose the branch, each branch is compared with itself. -/
theorem shown_ite {c : Prop} [Decidable c] (ha : c → shown a = shown a') (hb : ¬ c → shown b = shown b') :
    shown (if c then a else b) = shown (if c then a' else b') := by
  by_cases h : c
  · simp only [if_pos h]
    exact ha h
  · simp only [if_neg h]
    exact hb h

theorem shown_reactArp : shown (s.visible.reactArp lwip p) = shown (s.reactArp lwip p) := by
  refine shown_ite (fun _ => shown_swallow lwip) fun _ => ?_
  refine shown_ite (fun _ => shown_pass (s.visible_linkoutput lwip _)) fun _ => ?_
  refine shown_ite (fun _ => shown_pass rfl) fun _ => ?_
  refine shown_ite (fun _ => shown_swallow lwip) fun _ => ?_
  refine shown_ite (fun _ => ?_) fun _ => ?_
  · rw [visible_senderAlreadyTaught]
    cases s.senderAlreadyTaught p.payload with
    | mk taught s =>
      cases taught
      · exact shown_pass rfl
      · exact shown_swallow lwip
  refine shown_ite (fun _ => shown_swallow lwip) fun _ => ?_
  exact shown_pass rfl

theorem shown_reactUdp : shown (s.visible.reactUdp lwip p) = shown (s.reactUdp lwip p) := by
  refine shown_ite (fun _ => ?_) fun _ => shown_pass rfl
  exact shown_ite (fun _ => shown_swallow lwip) fun _ => shown_pass rfl

/-- The anchor is visible while the normalising flavor is armed. -/
theorem shown_normaliseFragTuple (h : s.flavor = kIpv4FaultNormaliseFragTuple) :
    shown (s.visible.normaliseFragTuple p) = shown (s.normaliseFragTuple p) := by
  have hanchor : s.visible.anchor = s.anchor := if_pos h
  refine shown_ite (fun _ => shown_ite (fun _ => ?_) fun _ => ?_) fun _ => shown_pass rfl
  · exact congrArg (·, some p) (by simp [visible, h, List.take_take])
  · rw [hanchor]
    split <;> exact shown_pass rfl

theorem shown_holdFirstFragment :
    shown (s.visible.holdFirstFragment lwip p) = shown (s.holdFirstFragment lwip p) := by
  refine shown_ite (fun _ => ?_) fun _ => shown_ite (fun _ => ?_) fun _ => shown_pass rfl
  · have hheld := s.visible_hold (resize p.payload p.len)
    rw [length_resize] at hheld
    exact shown_swallow_congr lwip hheld
  · dsimp only
    rw [visible_stack]
    have hlen : s.visible.heldFragmentLen = s.heldFragmentLen := rfl
    rw [hlen]
    cases lwip.pbufAlloc s.stack s.heldFragmentLen with
    | mk allocated stack =>
      have hbytes : s.visible.heldFragment.take s.heldFragmentLen =
          s.heldFragment.take s.heldFragmentLen := by
        simp [visible, List.take_take]
      refine shown_ite (fun _ => ?_) fun _ => shown_pass rfl
      rw [hbytes]
      exact congrArg (·, some p) (s.visible_release _ _)

theorem of_reaction_normalise {flavor : UInt8} (h : reaction flavor p = .normalise) :
    flavor = kIpv4FaultNormaliseFragTuple ∧ hasIpv4Header p = true := by
  unfold reaction at h
  dsimp only at h
  split_ifs at h
  next hchosen => simpa using hchosen

theorem shown_react : shown (s.visible.react lwip p) = shown (s.react lwip p) := by
  unfold react
  rw [visible_flavor]
  cases h : reaction s.flavor p with
  | arp => exact shown_reactArp lwip
  | udp => exact shown_reactUdp lwip
  | icmp => exact shown_pass (s.visible_linkoutput lwip _)
  | timestamp => exact shown_pass (s.visible_linkoutput lwip _)
  | tcp =>
    dsimp only
    cases tcpAnswer s.flavor p.payload with
    | none => exact shown_pass rfl
    | some flags => exact shown_pass (s.visible_emitTcpReply lwip _ _ _ _)
  | dropRst => exact shown_ite (fun _ => shown_swallow lwip) fun _ => shown_pass rfl
  | dropLast => exact shown_ite (fun _ => shown_swallow lwip) fun _ => shown_pass rfl
  | normalise => exact shown_normaliseFragTuple (of_reaction_normalise h).1
  | hold => exact shown_holdFirstFragment lwip
  | portBlind =>
    exact shown_ite (fun _ => shown_pass (s.visible_emitSrcPortBlindAck lwip _)) fun _ => shown_pass rfl
  | pass => exact shown_pass rfl

theorem visible_forward : (s.visible.forward lwip p).visible = (s.forward lwip p).visible := by
  unfold forward
  rw [visible_stack]
  by_cases h : s.flavor = kIpv4FaultNormaliseFragTuple <;> simp [visible, h, List.take_take]

/-- **A frame sees no more than `visible`.** -/
theorem ingressFaultInput_visible (h : s.visible = t.visible) :
    (s.ingressFaultInput lwip p).visible = (t.ingressFaultInput lwip p).visible := by
  have hnoted : (({ s with effects := [] }.count p).noteControlPeer p).visible =
      (({ t with effects := [] }.count p).noteControlPeer p).visible := by
    have hcount : ∀ u : Hook σ,
        ({ u with effects := [] }.count p).visible = { u.visible with effects := [] } := fun _ => rfl
    rw [← visible_noteControlPeer, ← visible_noteControlPeer, hcount, hcount, h]
  unfold ingressFaultInput
  generalize ({ s with effects := [] }.count p).noteControlPeer p = s' at hnoted ⊢
  generalize ({ t with effects := [] }.count p).noteControlPeer p = t' at hnoted ⊢
  have hflavor : s'.flavor = t'.flavor := by rw [← visible_flavor, hnoted, visible_flavor]
  have hreact : shown (if s'.flavor != kIngressFaultNone then s'.react lwip p else (s', some p)) =
      shown (if t'.flavor != kIngressFaultNone then t'.react lwip p else (t', some p)) := by
    rw [hflavor]
    refine shown_ite (fun _ => ?_) fun _ => congrArg (·, some p) hnoted
    rw [← shown_react lwip, hnoted, shown_react lwip]
  dsimp only
  generalize (if s'.flavor != kIngressFaultNone then s'.react lwip p else (s', some p)) = out at hreact ⊢
  generalize (if t'.flavor != kIngressFaultNone then t'.react lwip p else (t', some p)) = out' at hreact ⊢
  obtain ⟨u, q⟩ := out
  obtain ⟨u', q'⟩ := out'
  obtain ⟨hu, rfl⟩ := Prod.mk.inj hreact
  cases q with
  | none => exact hu
  | some q =>
    change (u.forward lwip q).visible = (u'.forward lwip q).visible
    rw [← visible_forward lwip, hu, visible_forward lwip]

theorem arrive_visible (h : s.visible = t.visible) (a : Arrival σ) :
    (s.arrive lwip a).visible = (t.arrive lwip a).visible := by
  have hstack : ∀ u : Hook σ, { u with stack := a.before u.stack }.visible =
      { u.visible with stack := a.before u.visible.stack } := fun _ => rfl
  exact ingressFaultInput_visible lwip (by rw [hstack, hstack, h])

/-- States that show the same behave the same on every later frame sequence. -/
theorem behaviour_eq_of_visible (h : s.visible = t.visible) (later : List (Arrival σ)) :
    s.behaviour lwip later = t.behaviour lwip later := by
  refine observe_congr (R := fun s t => s.visible = t.visible) ?_ h later
  intro s t a h
  have harrive := arrive_visible lwip h a
  have heffects : (s.arrive lwip a).visible.effects = (t.arrive lwip a).visible.effects := by rw [harrive]
  exact ⟨heffects, harrive⟩

end Shown

/-! ## The anchor of a history -/

/-- A head fragment: the first of several. -/
def isHeadFragment (p : Pbuf) : Bool :=
  hasIpv4Header p && moreFragments p.payload && fragOffset p.payload == 0

def noteFrame (seen : UInt8 × Option Anchor) (p : Pbuf) : UInt8 × Option Anchor :=
  if seen.1 = kIpv4FaultNormaliseFragTuple ∧ isHeadFragment p = true then
    (seen.1, some (anchorOf p.payload))
  else seen

/-- The armed flavor, and the tuple of the last head fragment that came while the normalising flavor was
armed. -/
def noteHead (seen : UInt8 × Option Anchor) : Event σ → UInt8 × Option Anchor
  | .arm flavor => (flavor, seen.2)
  | .arrival a => noteFrame seen a.frame

def lastHead (history : List (Event σ)) : Option Anchor :=
  (history.foldl noteHead (kIngressFaultNone, none)).2

section Head

variable {s t : Hook σ} {p : Pbuf} {rx : List UInt8} {m : UInt8 × Option Anchor}
  {a b : Hook σ × Option Pbuf}

/-- What `noteHead` follows. -/
def head (s : Hook σ) : UInt8 × Option Anchor := (s.flavor, s.anchor)

theorem head_linkoutput : (s.linkoutput lwip rx).head = s.head := by
  unfold linkoutput
  dsimp only
  split <;> rfl

theorem head_emitSrcPortBlindAck : (s.emitSrcPortBlindAck lwip rx).head = s.head := by
  unfold emitSrcPortBlindAck
  dsimp only
  split
  · rfl
  · exact head_linkoutput lwip

theorem head_ite {c : Prop} [Decidable c] (ha : a.1.head = m) (hb : b.1.head = m) :
    (if c then a else b).1.head = m := by
  split
  · exact ha
  · exact hb

theorem head_reactArp : (s.reactArp lwip p).1.head = s.head := by
  refine head_ite rfl (head_ite (head_linkoutput lwip) (head_ite rfl (head_ite rfl (head_ite ?_ ?_))))
  · have htaught : (s.senderAlreadyTaught p.payload).2.head = s.head := by
      unfold senderAlreadyTaught
      dsimp only
      split <;> rfl
    rw [← htaught]
    split
    · next heq =>
      rw [heq]
      rfl
    · next heq => rw [heq]
  · exact head_ite rfl rfl

theorem head_holdFirstFragment : (s.holdFirstFragment lwip p).1.head = s.head := by
  refine head_ite rfl (head_ite ?_ rfl)
  dsimp only
  split <;> rfl

theorem not_isArp_of_isIpv4 {f : List UInt8} (h : isIpv4 f = true) : isArp f = false := by
  unfold isIpv4 at h
  unfold isArp
  simp_all

/-- The normalising branch is the one for every IPv4 frame of its flavor. -/
theorem reaction_normalise (h : hasIpv4Header p = true) :
    reaction kIpv4FaultNormaliseFragTuple p = .normalise := by
  have harp : isArp p.payload = false := not_isArp_of_isIpv4 ((Bool.and_eq_true _ _).mp h).2
  unfold reaction
  simp only [harp, h, Bool.and_false]
  rfl

theorem head_normaliseFragTuple (hflavor : s.flavor = kIpv4FaultNormaliseFragTuple)
    (h : hasIpv4Header p = true) : (s.normaliseFragTuple p).1.head = noteFrame s.head p := by
  unfold normaliseFragTuple noteFrame isHeadFragment
  simp only [h, Bool.true_and]
  by_cases hoffset : fragOffset p.payload = 0
  · cases hmore : moreFragments p.payload with
    | false => simp [hoffset]
    | true =>
      simp [hoffset, head, hflavor]
  · have hlater : (fragOffset p.payload != 0) = true := by simpa using hoffset
    rw [if_pos (by rw [hlater, Bool.or_true]), if_neg hoffset, if_neg (by simp [hoffset])]
    split <;> rfl

theorem head_react (s : Hook σ) (p : Pbuf) : (s.react lwip p).1.head = noteFrame s.head p := by
  by_cases h : s.flavor = kIpv4FaultNormaliseFragTuple ∧ hasIpv4Header p = true
  · unfold react
    rw [h.1, reaction_normalise h.2]
    exact head_normaliseFragTuple h.1 h.2
  · have hseen : noteFrame s.head p = s.head := by
      refine if_neg fun hhead => h ⟨hhead.1, ?_⟩
      exact (Bool.and_eq_true _ _).mp ((Bool.and_eq_true _ _).mp hhead.2).1 |>.1
    rw [hseen]
    unfold react
    cases hreaction : reaction s.flavor p with
    | arp => exact head_reactArp lwip
    | udp => exact head_ite (head_ite rfl rfl) rfl
    | icmp => exact head_linkoutput lwip
    | timestamp => exact head_linkoutput lwip
    | tcp =>
      dsimp only
      cases tcpAnswer s.flavor p.payload with
      | none => rfl
      | some flags => exact head_linkoutput lwip
    | dropRst => exact head_ite rfl rfl
    | dropLast => exact head_ite rfl rfl
    | normalise => exact absurd (of_reaction_normalise hreaction) h
    | hold => exact head_holdFirstFragment lwip
    | portBlind => exact head_ite (head_emitSrcPortBlindAck lwip) rfl
    | pass => rfl

theorem head_ingressFaultInput (s : Hook σ) (p : Pbuf) :
    (s.ingressFaultInput lwip p).head = noteFrame s.head p := by
  have hnoted : (({ s with effects := [] }.count p).noteControlPeer p).head = s.head := by
    unfold noteControlPeer
    dsimp only
    split
    · rfl
    split <;> rfl
  rw [← hnoted]
  unfold ingressFaultInput
  generalize ({ s with effects := [] }.count p).noteControlPeer p = u
  have hout : (if u.flavor != kIngressFaultNone then u.react lwip p else (u, some p)).1.head =
      noteFrame u.head p := by
    by_cases hnone : u.flavor = kIngressFaultNone
    · have hseen : noteFrame u.head p = u.head := by
        refine if_neg fun hhead => ?_
        have hflavor : u.flavor = kIpv4FaultNormaliseFragTuple := hhead.1
        rw [hnone] at hflavor
        exact absurd hflavor (by decide)
      rw [if_neg (by simp [hnone]), hseen]
    · rw [if_pos (by simpa using hnone)]
      exact head_react lwip u p
  dsimp only
  rw [← hout]
  split
  · next heq => rw [heq]
  · next heq =>
    rw [heq]
    rfl

theorem head_step (s : Hook σ) (e : Event σ) : (s.step lwip e).head = noteHead s.head e := by
  cases e with
  | arm flavor => rfl
  | arrival a => exact head_ingressFaultInput lwip _ _

/-- The anchor after a history is the tuple of its last head fragment. -/
theorem anchor_after (boot : σ) (history : List (Event σ)) :
    (after lwip boot history).anchor = lastHead history := by
  have hrun : ∀ (s : Hook σ), (history.foldl (step lwip) s).head = history.foldl noteHead s.head := by
    induction history with
    | nil => exact fun s => rfl
    | cons e history ih =>
      intro s
      rw [List.foldl_cons, List.foldl_cons, ih, head_step]
  exact congrArg Prod.snd (hrun _)

end Head

/-! ## Histories told apart -/

section Impose

variable (a : Anchor) (f : List UInt8)

/-- The id and the source stay where they were put: what is written after them stands beside them. -/
theorem slice_impose_id : ((a.impose f).drop kIpIdOff).take 2 = putBe16 a.id := by
  unfold Anchor.impose
  iterate 4 rw [slice_writeAt_of_disjoint (by simp [length_writeAt, kIpIdOff])
    (by simp [kIpIdOff, kIpProtoOff, kIpSrcOff, kIpHdrChecksumOff])]
  exact slice_writeAt f kIpIdOff (putBe16 a.id)

theorem slice_impose_src : ((a.impose f).drop kIpSrcOff).take 4 = bytes32 a.src := by
  unfold Anchor.impose
  iterate 2 rw [slice_writeAt_of_disjoint (by simp [length_writeAt, kIpSrcOff])
    (by simp [kIpSrcOff, kIpHdrChecksumOff])]
  exact slice_writeAt _ kIpSrcOff (bytes32 a.src)

/-- Reading the tuple off a frame that was given one. -/
theorem anchorOf_impose : anchorOf (a.impose f) = a := by
  have hid : readBe16 (a.impose f) kIpIdOff = a.id := by
    rw [readBe16, readBe, slice_impose_id, putBe16, ofBE_toBE a.id.toNat_lt, UInt16.ofNat_toNat]
  have hsrc : copy32 (a.impose f) kIpSrcOff = a.src := by
    rw [copy32, slice_impose_src, bytes32, List.reverse_reverse, ofBE_toBE a.src.toNat_lt,
      UInt32.ofNat_toNat]
  have hproto : (a.impose f).getD kIpProtoOff 0 = a.proto := by
    simp only [Anchor.impose, getD_writeAt, kIpProtoOff, kIpSrcOff, kIpHdrChecksumOff, kIpIdOff]
    rfl
  rw [anchorOf, hid, hsrc, hproto]

end Impose

/-- A tail fragment of protocol 0 with the identification `id`. -/
def tailFragment (id : UInt8) : Pbuf :=
  ⟨List.replicate 12 0 ++ [0x08, 0x00] ++ [0x45, 0, 0, 20, 0, id, 0, 1, 64, 0, 0, 0] ++ List.replicate 8 0,
    34, []⟩

/-- The payload a fragment goes on with. -/
def imposed (anchor : Option Anchor) (f : List UInt8) : List UInt8 :=
  match anchor with
  | some a => a.impose f
  | none => f

variable {s t : Hook σ}

/-- The normalising flavor hands a tail on with the tuple of the anchor. -/
theorem behaviour_tail (h : s.flavor = kIpv4FaultNormaliseFragTuple) (id : UInt8) :
    s.behaviour lwip [⟨fun stack => stack, tailFragment id⟩] =
      [.forwarded { tailFragment id with payload := imposed s.anchor (tailFragment id).payload }] := by
  have hreact : ∀ u : Hook σ, u.flavor = kIpv4FaultNormaliseFragTuple →
      u.react lwip (tailFragment id) =
        (u, some { tailFragment id with payload := imposed u.anchor (tailFragment id).payload }) := by
    intro u hu
    unfold react
    rw [hu, reaction_normalise rfl]
    change u.normaliseFragTuple (tailFragment id) = _
    have hmore : moreFragments (tailFragment id).payload = false := by
      simp [moreFragments, tailFragment, kEthHdrLen]
    have hoffset : fragOffset (tailFragment id).payload = 1 := by
      simp [fragOffset, tailFragment, kEthHdrLen]
    simp only [normaliseFragTuple, hmore, hoffset]
    cases u.anchor <;> rfl
  have hinput : (s.ingressFaultInput lwip (tailFragment id)).effects =
      [.forwarded { tailFragment id with payload := imposed s.anchor (tailFragment id).payload }] := by
    unfold ingressFaultInput
    have hnoted : ({ s with effects := [] }.count (tailFragment id)).noteControlPeer (tailFragment id) =
        { s with effects := [] }.count (tailFragment id) := rfl
    have harmed : ({ s with effects := [] }.count (tailFragment id)).flavor =
        kIpv4FaultNormaliseFragTuple := h
    dsimp only
    rw [hnoted, if_pos (by rw [harmed]; decide), hreact _ harmed]
    rfl
  exact (List.append_nil _).trans hinput

/-- Where a tail leads to the same, it goes on with the same tuple. -/
theorem tuple_eq_of_behaviour_tail (hs : s.flavor = kIpv4FaultNormaliseFragTuple)
    (ht : t.flavor = kIpv4FaultNormaliseFragTuple) {id : UInt8}
    (h : s.behaviour lwip [⟨fun stack => stack, tailFragment id⟩] =
      t.behaviour lwip [⟨fun stack => stack, tailFragment id⟩]) :
    anchorOf (imposed s.anchor (tailFragment id).payload) =
      anchorOf (imposed t.anchor (tailFragment id).payload) := by
  rw [behaviour_tail lwip hs, behaviour_tail lwip ht] at h
  injection h with h
  injection h with h
  injection h with hpayload
  rw [hpayload]

/-- Two anchors are told apart by a tail that carries neither's tuple. -/
theorem anchor_eq_of_behaviour (hs : s.flavor = kIpv4FaultNormaliseFragTuple)
    (ht : t.flavor = kIpv4FaultNormaliseFragTuple)
    (h : ∀ later, s.behaviour lwip later = t.behaviour lwip later) : s.anchor = t.anchor := by
  have htail : ∀ id, anchorOf (imposed s.anchor (tailFragment id).payload) =
      anchorOf (imposed t.anchor (tailFragment id).payload) :=
    fun id => tuple_eq_of_behaviour_tail lwip hs ht (h _)
  have hbare : anchorOf (tailFragment 0).payload ≠ anchorOf (tailFragment 1).payload := by decide
  cases hsa : s.anchor with
  | none =>
    cases hta : t.anchor with
    | none => rfl
    | some b =>
      simp only [hsa, hta, imposed, anchorOf_impose] at htail
      exact absurd ((htail 0).trans (htail 1).symm) hbare
  | some a =>
    cases hta : t.anchor with
    | none =>
      simp only [hsa, hta, imposed, anchorOf_impose] at htail
      exact absurd ((htail 0).symm.trans (htail 1)) hbare
    | some b =>
      simp only [hsa, hta, imposed, anchorOf_impose] at htail
      rw [htail 0]

/-- What became of the last frame does not matter to the next one. -/
theorem behaviour_effects (s : Hook σ) (effects : List Effect) (later : List (Arrival σ)) :
    { s with effects }.behaviour lwip later = s.behaviour lwip later := by
  cases later <;> rfl

/-- **An arm forgets all but the anchor.** Whatever came before `setIngressFaultFlavor(f)`, two histories
that leave the same control peer and the same stack are followed by the same behaviour on every later
frame sequence if and only if `f` is not the normalising flavor, or the last head fragments that came
while it was armed had the same tuple. -/
theorem forgets_iff (boot boot' : σ) (history history' : List (Event σ)) (f : UInt8)
    (hmac : (after lwip boot history).controlPeerMac = (after lwip boot' history').controlPeerMac)
    (hpeer : (after lwip boot history).haveControlPeer = (after lwip boot' history').haveControlPeer)
    (hstack : (after lwip boot history).stack = (after lwip boot' history').stack) :
    (∀ later, ((after lwip boot history).setIngressFaultFlavor f).behaviour lwip later =
      ((after lwip boot' history').setIngressFaultFlavor f).behaviour lwip later) ↔
    (f = kIpv4FaultNormaliseFragTuple → lastHead history = lastHead history') := by
  rw [← anchor_after lwip boot, ← anchor_after lwip boot']
  generalize after lwip boot history = s at *
  generalize after lwip boot' history' = t at *
  constructor
  · intro h hf
    have hs : (s.setIngressFaultFlavor f).flavor = kIpv4FaultNormaliseFragTuple := hf
    have ht : (t.setIngressFaultFlavor f).flavor = kIpv4FaultNormaliseFragTuple := hf
    have hanchor := anchor_eq_of_behaviour lwip hs ht h
    exact hanchor
  · intro h later
    rw [← behaviour_effects lwip (s.setIngressFaultFlavor f) [],
      ← behaviour_effects lwip (t.setIngressFaultFlavor f) []]
    refine behaviour_eq_of_visible lwip ?_ later
    have hanchor : (if f = kIpv4FaultNormaliseFragTuple then s.anchor else none) =
        if f = kIpv4FaultNormaliseFragTuple then t.anchor else none := by
      split
      · next hf => exact h hf
      · rfl
    simp only [visible, setIngressFaultFlavor, hmac, hpeer, hstack, hanchor, List.take_zero]
    rfl

/-- A stack that is never out of memory and never refuses. -/
def quietStack : Stack Unit where
  hwaddr _ := Vector.replicate 6 0x02
  ipAddr _ := 0
  tcpActivePcbs _ := []
  pbufAlloc _ _ := (true, ())
  pbufFree _ _ := ()
  linkoutput _ _ := ()
  addStaticEntry _ _ _ := ()
  tcpipInput _ _ := (true, ())

/-- A head fragment of protocol 0 with the identification `id`. -/
def headFragment (id : UInt8) : Pbuf :=
  ⟨List.replicate 12 0 ++ [0x08, 0x00] ++ [0x45, 0, 0, 20, 0, id, 0x20, 0, 64, 0, 0, 0] ++
    List.replicate 8 0, 34, []⟩

/-- A case that ran the normalising flavor over one head fragment. -/
def normalisedCase (id : UInt8) : List (Event Unit) :=
  [.arm kIpv4FaultNormaliseFragTuple, .arrival ⟨fun stack => stack, headFragment id⟩,
    .arm kIngressFaultNone]

/-- The case leaves nothing to one that holds a head back: its own head comes with its own tail. -/
theorem forgets_iff_hold : (∀ later : List (Arrival Unit),
    ((after quietStack () (normalisedCase 7)).setIngressFaultFlavor
      kIpv4FaultHoldFirstFragment).behaviour quietStack later =
    ((after quietStack () []).setIngressFaultFlavor
      kIpv4FaultHoldFirstFragment).behaviour quietStack later) ↔
    (kIpv4FaultHoldFirstFragment = kIpv4FaultNormaliseFragTuple →
      lastHead (normalisedCase 7) = lastHead ([] : List (Event Unit))) :=
  forgets_iff quietStack () () (normalisedCase 7) [] kIpv4FaultHoldFirstFragment rfl rfl rfl

/-- **A tail of one case takes the tuple of another case's head.** -/
theorem not_forgets_normalise :
    (after quietStack () (normalisedCase 7)).controlPeerMac =
      (after quietStack () []).controlPeerMac ∧
    (after quietStack () (normalisedCase 7)).haveControlPeer =
      (after quietStack () []).haveControlPeer ∧
    (after quietStack () (normalisedCase 7)).stack = (after quietStack () []).stack ∧
    ((after quietStack () (normalisedCase 7)).setIngressFaultFlavor
      kIpv4FaultNormaliseFragTuple).behaviour quietStack [⟨fun stack => stack, tailFragment 9⟩] ≠
    ((after quietStack () []).setIngressFaultFlavor
      kIpv4FaultNormaliseFragTuple).behaviour quietStack [⟨fun stack => stack, tailFragment 9⟩] := by
  refine ⟨rfl, rfl, rfl, fun h => ?_⟩
  have htuple := tuple_eq_of_behaviour_tail quietStack rfl rfl h
  have hanchor : ((after quietStack () (normalisedCase 7)).setIngressFaultFlavor
      kIpv4FaultNormaliseFragTuple).anchor = some ⟨7, 0, 0⟩ := anchor_after quietStack () (normalisedCase 7)
  rw [hanchor, imposed, anchorOf_impose] at htuple
  exact absurd htuple (by decide)

end Hook

end Tc8Harness.LwipDut
