import Tc8Harness.LwipDut.Arming

/-!
# What becomes of every inbound frame

The accounting of the ingress fault hook over whole histories: every frame is forwarded once or swallowed
once, a control frame is forwarded as it came and answered by nothing, a head fragment that is held back is
replayed at most once and as it came, right before a tail. A fragment that the normalising flavor rewrites
has its header checksum recomputed over the twenty bytes of a header without options, whatever its IHL says;
`Spared` is when that is enough.
-/

namespace Tc8Harness.LwipDut

open BigEndian Wire Someip ByteBuffer

/-- The bytes of a frame. -/
def Pbuf.bytes (p : Pbuf) : List UInt8 := p.payload.take p.len ++ p.next

/-- The length the IPv4 header says it has. -/
def ipv4HeaderLen (p : Pbuf) : Nat := (p.payload.getD kEthHdrLen 0 &&& 0x0F).toNat * 4

def ipv4Header (p : Pbuf) : List UInt8 := (p.bytes.drop kEthHdrLen).take (ipv4HeaderLen p)

/-- The part of the header behind its twenty fixed bytes. -/
def ipv4Options (p : Pbuf) : List UInt8 :=
  (p.bytes.drop (kEthHdrLen + kIpHdrLenMin)).take (ipv4HeaderLen p - kIpHdrLenMin)

/-- An unfragmented IPv4/UDP frame to the Upper Tester's control port. -/
def isControlFrame (p : Pbuf) : Bool :=
  decide (kIpProtoOff + 1 ≤ p.len) && isIpv4 p.payload && carries p kIpProtoUdp kUdpHdrLen &&
    readBe16 p.payload (l4RegionOffset p.payload + kUdpDstPort) == kPort &&
    !moreFragments p.payload && fragOffset p.payload == 0

def isTailFragment (p : Pbuf) : Bool :=
  hasIpv4Header p && !moreFragments p.payload && fragOffset p.payload != 0

/-- What the hook sends or teaches beside the frame. -/
def Effect.isSide : Effect → Bool
  | .synthesized _ | .learned _ _ => true
  | .forwarded _ | .swallowed _ => false

/-- A frame's effects: it is swallowed, or forwarded last; ahead of a tail, the head that is held. -/
inductive Accounted (held : Option Pbuf) (p : Pbuf) : List Effect → Prop
  | swallowed : Accounted held p [.swallowed p]
  | forwarded {side : List Effect} {q : Pbuf} (hside : ∀ e ∈ side, e.isSide = true)
      (hlen : q.len = p.len) (hnext : q.next = p.next) : Accounted held p (side ++ [.forwarded q])
  | replayed {head p₀ : Pbuf} (hheld : held = some p₀) (hbytes : head.bytes = p₀.bytes)
      (htail : isTailFragment p = true) : Accounted held p [.forwarded head, .forwarded p]

namespace Hook

variable {σ : Type} {lwip : Stack σ} {s t : Hook σ} {p q : Pbuf} {held : Option Pbuf}

/-- The frame is a later fragment that takes the anchor's tuple. -/
def Rewrites (s : Hook σ) (p : Pbuf) : Prop :=
  s.flavor = kIpv4FaultNormaliseFragTuple ∧ hasIpv4Header p = true ∧ fragOffset p.payload ≠ 0 ∧
    s.anchor.isSome = true

instance (s : Hook σ) (p : Pbuf) : Decidable (s.Rewrites p) := inferInstanceAs (Decidable (_ ∧ _))

/-- The frame is a head fragment that is held back. -/
def Holds (s : Hook σ) (p : Pbuf) : Prop :=
  s.flavor = kIpv4FaultHoldFirstFragment ∧ isHeadFragment p = true ∧ p.len ≤ kHeldFragmentCap

instance (s : Hook σ) (p : Pbuf) : Decidable (s.Holds p) := inferInstanceAs (Decidable (_ ∧ _))

/-- What is asked of a frame's effects. -/
structure Sound (s : Hook σ) (held : Option Pbuf) (p : Pbuf) (effects : List Effect) : Prop where
  control : isControlFrame p = true → effects = [.forwarded p]
  accounted : Accounted held p effects
  rewritten : s.Rewrites p → ∃ q, effects = [.forwarded q] ∧ inetChecksumValid (ipv4Header q) = true

/-- The frame that is held after another one: a head that was swallowed, until it is replayed. -/
def noteHeld (flavor : UInt8) (held : Option Pbuf) (effects : List Effect) : Option Pbuf :=
  if flavor = kIpv4FaultHoldFirstFragment then
    match effects with
    | [.swallowed p] => some p
    | [.forwarded _, .forwarded _] => none
    | _ => held
  else held

/-- The hook and the held frame after an event. An arm lets go of what is held. -/
def follow (lwip : Stack σ) (x : Hook σ × Option Pbuf) (e : Event σ) : Hook σ × Option Pbuf :=
  (x.1.step lwip e,
    match e with
    | .arm _ => none
    | .arrival a => noteHeld x.1.flavor x.2 (x.1.arrive lwip a).effects)

def heldAfter (lwip : Stack σ) (boot : σ) (history : List (Event σ)) : Option Pbuf :=
  (history.foldl (follow lwip) ({ stack := boot }, none)).2

/-- The header of a rewritten fragment has no options, or ones that add nothing to the sum; a head that is
held is in one buffer. -/
def Spared (s : Hook σ) : Event σ → Prop
  | .arm _ => True
  | .arrival a =>
    (s.Rewrites a.frame → kIpHdrLenMin ≤ ipv4HeaderLen a.frame ∧
      sum16 (ipv4Options a.frame) % 65535 = 0) ∧
    (s.Holds a.frame → a.frame.next = [])

/-- Every event of the history meets the condition in the state it comes in. -/
def AllSpared (lwip : Stack σ) : Hook σ → List (Event σ) → Prop
  | _, [] => True
  | s, e :: events => s.Spared e ∧ AllSpared lwip (s.step lwip e) events

/-! ## The effects of one frame -/

/-- The effects once a reaction is through: the frame that goes on is forwarded. -/
def disposed (out : Hook σ × Option Pbuf) : List Effect :=
  match out with
  | (t, none) => t.effects
  | (t, some q) => t.effects ++ [.forwarded q]

theorem effects_ingressFaultInput (lwip : Stack σ) (s : Hook σ) (p : Pbuf) :
    ∃ t : Hook σ, t.effects = [] ∧ t.flavor = s.flavor ∧ t.anchor = s.anchor ∧
      t.heldFragment = s.heldFragment ∧ t.heldFragmentLen = s.heldFragmentLen ∧
      (s.ingressFaultInput lwip p).effects =
        disposed (if t.flavor != kIngressFaultNone then t.react lwip p else (t, some p)) ∧
      (s.ingressFaultInput lwip p).heldFragment =
        (if t.flavor != kIngressFaultNone then t.react lwip p else (t, some p)).1.heldFragment ∧
      (s.ingressFaultInput lwip p).heldFragmentLen =
        (if t.flavor != kIngressFaultNone then t.react lwip p else (t, some p)).1.heldFragmentLen := by
  refine ⟨({ s with effects := [] }.count p).noteControlPeer p, ?_⟩
  have hnoted : ∀ u : Hook σ, (u.noteControlPeer p).effects = u.effects ∧
      (u.noteControlPeer p).flavor = u.flavor ∧ (u.noteControlPeer p).anchor = u.anchor ∧
      (u.noteControlPeer p).heldFragment = u.heldFragment ∧
      (u.noteControlPeer p).heldFragmentLen = u.heldFragmentLen := by
    intro u
    unfold noteControlPeer
    dsimp only
    split
    · exact ⟨rfl, rfl, rfl, rfl, rfl⟩
    · split <;> exact ⟨rfl, rfl, rfl, rfl, rfl⟩
  obtain ⟨heffects, hflavor, hanchor, hheld, hlen⟩ := hnoted ({ s with effects := [] }.count p)
  refine ⟨heffects, hflavor, hanchor, hheld, hlen, ?_⟩
  unfold ingressFaultInput
  dsimp only
  generalize ({ s with effects := [] }.count p).noteControlPeer p = u
  generalize (if u.flavor != kIngressFaultNone then u.react lwip p else (u, some p)) = out
  obtain ⟨t, q⟩ := out
  cases q <;> exact ⟨rfl, rfl, rfl⟩

section Accounting

variable {a b : Hook σ × Option Pbuf} {rx : List UInt8}

theorem accounted_ite {c : Prop} [Decidable c] (ha : c → Accounted held p (disposed a))
    (hb : ¬ c → Accounted held p (disposed b)) : Accounted held p (disposed (if c then a else b)) := by
  split
  · next h => exact ha h
  · next h => exact hb h

/-- The frame goes on after side effects. -/
theorem accounted_side (h : ∀ e ∈ t.effects, e.isSide = true) :
    Accounted held p (disposed (t, some p)) := .forwarded h rfl rfl

theorem accounted_pass (h : t.effects = []) : Accounted held p (disposed (t, some p)) :=
  accounted_side (by rw [h]; nofun)

theorem accounted_swallow (h : t.effects = []) : Accounted held p (disposed (t.swallow lwip p)) := by
  have heffects : disposed (t.swallow lwip p) = [.swallowed p] := by
    rw [swallow, disposed, h]
    rfl
  rw [heffects]
  exact .swallowed

theorem side_linkoutput (h : s.effects = []) :
    ∀ e ∈ (s.linkoutput lwip rx).effects, e.isSide = true := by
  unfold linkoutput
  dsimp only
  split
  · rw [h]
    exact List.forall_mem_singleton.2 rfl
  · rw [h]
    nofun

theorem side_emitSrcPortBlindAck (h : s.effects = []) :
    ∀ e ∈ (s.emitSrcPortBlindAck lwip rx).effects, e.isSide = true := by
  unfold emitSrcPortBlindAck
  dsimp only
  split
  · rw [h]
    nofun
  · exact side_linkoutput h

theorem accounted_reactArp (h : s.effects = []) : Accounted held p (disposed (s.reactArp lwip p)) := by
  refine accounted_ite (fun _ => accounted_swallow h) fun _ => ?_
  refine accounted_ite (fun _ => accounted_side (side_linkoutput h)) fun _ => ?_
  refine accounted_ite (fun _ => accounted_side ?_) fun _ => ?_
  · rw [learnDropFrameAddress, h]
    exact List.forall_mem_singleton.2 rfl
  refine accounted_ite (fun _ => accounted_swallow h) fun _ => ?_
  refine accounted_ite (fun _ => ?_) fun _ => ?_
  · have htaught : (s.senderAlreadyTaught p.payload).2.effects = [] := by
      unfold senderAlreadyTaught
      dsimp only
      split <;> exact h
    revert htaught
    rcases s.senderAlreadyTaught p.payload with ⟨taught, u⟩
    intro htaught
    cases taught
    · exact accounted_pass htaught
    · exact accounted_swallow htaught
  exact accounted_ite (fun _ => accounted_swallow h) fun _ => accounted_pass h

theorem accounted_reactUdp (h : s.effects = []) : Accounted held p (disposed (s.reactUdp lwip p)) := by
  refine accounted_ite (fun _ => accounted_ite (fun _ => accounted_swallow h) fun _ => ?_)
    fun _ => accounted_pass h
  exact .forwarded (by rw [h]; nofun) rfl rfl

theorem accounted_normaliseFragTuple (h : s.effects = []) :
    Accounted held p (disposed (s.normaliseFragTuple p)) := by
  refine accounted_ite (fun _ => accounted_ite (fun _ => accounted_pass h) fun _ => ?_)
    fun _ => accounted_pass h
  split
  · exact .forwarded (by rw [h]; nofun) rfl rfl
  · exact accounted_pass h

end Accounting

/-! ## The held fragment -/

/-- What the hook has of the held frame. -/
def HeldAs (s : Hook σ) (held : Option Pbuf) : Prop :=
  s.heldFragmentLen ≠ 0 → ∃ p₀, held = some p₀ ∧ s.heldFragment.take s.heldFragmentLen = p₀.bytes

/-- The frame that is replayed is the one that is held. -/
theorem accounted_holdFirstFragment (h : s.effects = []) (hheld : s.HeldAs held)
    (hheader : hasIpv4Header p = true) : Accounted held p (disposed (s.holdFirstFragment lwip p)) := by
  refine accounted_ite (fun _ => accounted_swallow h) fun _ => accounted_ite (fun htail => ?_)
    fun _ => accounted_pass h
  dsimp only
  rcases lwip.pbufAlloc s.stack s.heldFragmentLen with ⟨allocated, stack⟩
  refine accounted_ite (fun _ => ?_) fun _ => accounted_pass h
  simp only [Bool.and_eq_true, bne_iff_ne] at htail
  obtain ⟨⟨hmore, hoffset⟩, hlen⟩ := htail
  obtain ⟨p₀, hsome, hbytes⟩ := hheld hlen
  rw [disposed]
  dsimp only
  rw [h]
  refine .replayed hsome ?_ ?_
  · rw [← hbytes, Pbuf.bytes, List.take_take, Nat.min_self, List.append_nil]
  · rw [isTailFragment, hheader, hmore, Bool.true_and, Bool.true_and]
    exact bne_iff_ne.2 hoffset

theorem of_reaction_hold {flavor : UInt8} (h : reaction flavor p = .hold) :
    flavor = kIpv4FaultHoldFirstFragment ∧ hasIpv4Header p = true := by
  unfold reaction at h
  dsimp only at h
  split_ifs at h
  next hchosen => simpa using hchosen

/-- Every frame is accounted for. -/
theorem accounted_react (h : s.effects = []) (hheld : s.HeldAs held) :
    Accounted held p (disposed (s.react lwip p)) := by
  unfold react
  cases hreaction : reaction s.flavor p with
  | arp => exact accounted_reactArp h
  | udp => exact accounted_reactUdp h
  | icmp => exact accounted_side (side_linkoutput h)
  | timestamp => exact accounted_side (side_linkoutput h)
  | tcp =>
    dsimp only
    cases tcpAnswer s.flavor p.payload with
    | none => exact accounted_pass h
    | some flags => exact accounted_side (side_linkoutput h)
  | dropRst => exact accounted_ite (fun _ => accounted_swallow h) fun _ => accounted_pass h
  | dropLast => exact accounted_ite (fun _ => accounted_swallow h) fun _ => accounted_pass h
  | normalise => exact accounted_normaliseFragTuple h
  | hold => exact accounted_holdFirstFragment h hheld (of_reaction_hold hreaction).2
  | portBlind =>
    exact accounted_ite (fun _ => accounted_side (side_emitSrcPortBlindAck h)) fun _ => accounted_pass h
  | pass => exact accounted_pass h

/-! ## Control frames -/

/-- No reaction is for a control frame: its port is not the data port, and it is no fragment. -/
theorem react_control (h : isControlFrame p = true) : s.react lwip p = (s, some p) := by
  simp only [isControlFrame, Bool.and_eq_true, beq_iff_eq, Bool.not_eq_true'] at h
  obtain ⟨⟨⟨⟨⟨-, hip⟩, hcarries⟩, hport⟩, hmore⟩, hoffset⟩ := h
  have harp := not_isArp_of_isIpv4 hip
  have hproto : p.payload.getD kIpProtoOff 0 = kIpProtoUdp :=
    beq_iff_eq.1 ((Bool.and_eq_true _ _).mp hcarries).1
  have hicmp : (p.payload.getD kIpProtoOff 0 == kIpProtoIcmp) = false := by
    rw [hproto]
    rfl
  have hother : ∀ {proto : UInt8} (n : Nat), kIpProtoUdp ≠ proto → carries p proto n = false := by
    intro proto n hne
    rw [carries, hproto, beq_false_of_ne hne, Bool.false_and]
  have hnotIcmp := hother kIcmpMinHdrLen (by decide : kIpProtoUdp ≠ kIpProtoIcmp)
  have hnotTcp := hother kTcpMinHdrLen (by decide : kIpProtoUdp ≠ kIpProtoTcp)
  have hchoice : reaction s.flavor p = .udp ∨ reaction s.flavor p = .dropLast ∨
      reaction s.flavor p = .normalise ∨ reaction s.flavor p = .hold ∨ reaction s.flavor p = .pass := by
    unfold reaction
    simp only [harp, hicmp, hnotIcmp, hnotTcp, Bool.and_false, Bool.false_and, Bool.false_eq_true,
      if_false]
    split_ifs <;> simp
  unfold react
  rcases hchoice with hr | hr | hr | hr | hr <;> rw [hr] <;> dsimp only
  · unfold reactUdp
    dsimp only
    rw [hport, if_neg (by decide)]
  · rw [hmore, hoffset]
    rfl
  · unfold normaliseFragTuple
    dsimp only
    rw [hmore, hoffset]
    rfl
  · unfold holdFirstFragment
    dsimp only
    rw [hmore, hoffset]
    rfl

/-! ## Rewritten fragments -/

theorem react_rewrites (h : s.Rewrites p) : ∃ anchor : Anchor,
    s.react lwip p = (s, some { p with payload := anchor.impose p.payload }) := by
  obtain ⟨hflavor, hheader, hoffset, hanchor⟩ := h
  obtain ⟨anchor, hsome⟩ := Option.isSome_iff_exists.1 hanchor
  refine ⟨anchor, ?_⟩
  have hlater : (moreFragments p.payload || fragOffset p.payload != 0) = true := by
    rw [bne_iff_ne.2 hoffset, Bool.or_true]
  unfold react
  rw [hflavor, reaction_normalise hheader]
  change s.normaliseFragTuple p = _
  unfold normaliseFragTuple
  dsimp only
  rw [if_pos hlater, if_neg hoffset, hsome]

end Hook

/-- A write that stays in front of an offset leaves what is behind it. -/
theorem drop_writeAt {buf data : List UInt8} {offset k : Nat} (hfits : offset + data.length ≤ buf.length)
    (hk : offset + data.length ≤ k) : (writeAt buf offset data).drop k = buf.drop k := by
  have hgrown : ¬ buf.length < offset + data.length := by omega
  have hlen : (buf.take offset ++ data).length = offset + data.length := by
    rw [List.length_append, List.length_take]
    omega
  rw [writeAt, if_neg hgrown, List.drop_append, hlen, List.drop_eq_nil_of_le (by omega), List.nil_append,
    List.drop_drop]
  congr 1
  omega

section Impose

variable {anchor : Anchor} {f : List UInt8}

/-- The header whose checksum is computed, up to the checksum's two zeros. -/
def Anchor.zeroed (anchor : Anchor) (f : List UInt8) : List UInt8 :=
  writeAt (writeAt (writeAt (writeAt f kIpIdOff (putBe16 anchor.id)) kIpProtoOff [anchor.proto])
    kIpSrcOff (bytes32 anchor.src)) kIpHdrChecksumOff (putBe16 0)

theorem Anchor.impose_eq (anchor : Anchor) (f : List UInt8) :
    anchor.impose f = writeAt (anchor.zeroed f) kIpHdrChecksumOff
      (putBe16 (inetChecksum (((anchor.zeroed f).drop kEthHdrLen).take kIpHdrLenMin))) := rfl

theorem Anchor.length_zeroed (hlen : kEthHdrLen + kIpHdrLenMin ≤ f.length) :
    (anchor.zeroed f).length = f.length := by
  simp only [Anchor.zeroed, length_writeAt, length_putBe16, length_bytes32, List.length_singleton,
    kIpIdOff, kIpProtoOff, kIpSrcOff, kIpHdrChecksumOff]
  rw [kEthHdrLen, kIpHdrLenMin] at hlen
  omega

theorem Anchor.length_impose (hlen : kEthHdrLen + kIpHdrLenMin ≤ f.length) :
    (anchor.impose f).length = f.length := by
  rw [Anchor.impose_eq, length_writeAt, Anchor.length_zeroed hlen, length_putBe16]
  rw [kEthHdrLen, kIpHdrLenMin] at hlen
  rw [kIpHdrChecksumOff]
  omega

/-- Twenty bytes of the header, cut at the checksum. -/
theorem header_split {g : List UInt8} {word : List UInt8}
    (hmid : (g.drop kIpHdrChecksumOff).take 2 = word) :
    (g.drop kEthHdrLen).take kIpHdrLenMin =
      (g.drop kEthHdrLen).take 10 ++ (word ++ (g.drop 26).take 8) := by
  have htake : ∀ (l : List UInt8) (m n : Nat), l.take (m + n) = l.take m ++ (l.drop m).take n :=
    fun l m n => List.take_add
  rw [show kIpHdrLenMin = 10 + (2 + 8) from rfl, htake, List.drop_drop, htake, List.drop_drop,
    show kEthHdrLen + 10 = kIpHdrChecksumOff from rfl, hmid]
  rfl

/-- The twenty bytes carry the checksum of themselves. -/
theorem Anchor.impose_valid (hlen : kEthHdrLen + kIpHdrLenMin ≤ f.length) :
    inetChecksumValid (((anchor.impose f).drop kEthHdrLen).take kIpHdrLenMin) = true := by
  have hz : kEthHdrLen + kIpHdrLenMin ≤ (anchor.zeroed f).length := by rwa [Anchor.length_zeroed hlen]
  have hzmid : ((anchor.zeroed f).drop kIpHdrChecksumOff).take 2 = putBe16 0 := slice_writeAt _ _ (putBe16 0)
  have hmid := slice_writeAt (anchor.zeroed f) kIpHdrChecksumOff
    (putBe16 (inetChecksum (((anchor.zeroed f).drop kEthHdrLen).take kIpHdrLenMin)))
  rw [length_putBe16, ← Anchor.impose_eq] at hmid
  have hfront : ((anchor.impose f).drop kEthHdrLen).take 10 =
      ((anchor.zeroed f).drop kEthHdrLen).take 10 := by
    rw [Anchor.impose_eq]
    refine slice_writeAt_of_disjoint ?_ (.inl (by decide))
    rw [kEthHdrLen, kIpHdrLenMin] at hz
    rw [kEthHdrLen]
    omega
  have hback : ((anchor.impose f).drop 26).take 8 = ((anchor.zeroed f).drop 26).take 8 := by
    rw [Anchor.impose_eq]
    refine slice_writeAt_of_disjoint ?_ (.inr ?_)
    · rw [kEthHdrLen, kIpHdrLenMin] at hz
      omega
    · rw [length_putBe16]
      decide
  have hten : (((anchor.zeroed f).drop kEthHdrLen).take 10).length = 10 := by
    rw [List.length_take, List.length_drop]
    rw [kEthHdrLen, kIpHdrLenMin] at hz
    rw [kEthHdrLen]
    omega
  rw [header_split hmid, hfront, hback, header_split hzmid]
  exact inetChecksumValid_append _ (by rw [hten])

/-- Behind the fixed header nothing is written. -/
theorem Anchor.drop_impose (hlen : kEthHdrLen + kIpHdrLenMin ≤ f.length) :
    (anchor.impose f).drop (kEthHdrLen + kIpHdrLenMin) = f.drop (kEthHdrLen + kIpHdrLenMin) := by
  rw [kEthHdrLen, kIpHdrLenMin] at hlen ⊢
  have hstep : ∀ {g data : List UInt8} {offset : Nat}, f.length ≤ g.length → offset + data.length ≤ 34 →
      (writeAt g offset data).drop 34 = g.drop 34 ∧ f.length ≤ (writeAt g offset data).length := by
    intro g data offset hg hoffset
    refine ⟨drop_writeAt (by omega) hoffset, ?_⟩
    rw [length_writeAt]
    omega
  have hid := @hstep f (putBe16 anchor.id) kIpIdOff (Nat.le_refl _) (by rw [length_putBe16]; decide)
  have hproto := @hstep _ [anchor.proto] kIpProtoOff hid.2 (by rw [List.length_singleton]; decide)
  have hsrc := @hstep _ (bytes32 anchor.src) kIpSrcOff hproto.2 (by rw [length_bytes32]; decide)
  have hzero := @hstep _ (putBe16 0) kIpHdrChecksumOff hsrc.2 (by rw [length_putBe16]; decide)
  have hsum := @hstep _ (putBe16 (inetChecksum (((anchor.zeroed f).drop kEthHdrLen).take kIpHdrLenMin)))
    kIpHdrChecksumOff hzero.2 (by rw [length_putBe16]; decide)
  exact hsum.1.trans (hzero.1.trans (hsrc.1.trans (hproto.1.trans hid.1)))

theorem Anchor.ipv4HeaderLen_impose (p : Pbuf) :
    ipv4HeaderLen { p with payload := anchor.impose p.payload } = ipv4HeaderLen p := by
  have hbyte : (anchor.impose p.payload).getD kEthHdrLen 0 = p.payload.getD kEthHdrLen 0 := by
    simp only [Anchor.impose, getD_writeAt, kEthHdrLen, kIpProtoOff, kIpSrcOff, kIpHdrChecksumOff, kIpIdOff]
    rfl
  rw [ipv4HeaderLen, ipv4HeaderLen, hbyte]

end Impose

theorem sum16_le (data : List UInt8) : sum16 data ≤ 65535 * data.length := by
  fun_induction sum16 data with
  | case1 => exact Nat.le_refl _
  | case2 x =>
    have hx := x.toNat_lt
    simp only [List.length_singleton]
    omega
  | case3 x y rest ih =>
    have hx := x.toNat_lt
    have hy := y.toNat_lt
    simp only [List.length_cons]
    omega

/-- Bytes behind a valid header leave it valid exactly when they add nothing to its sum. -/
theorem inetChecksumValid_append_iff {x y : List UInt8} (hx : inetChecksumValid x = true)
    (heven : x.length % 2 = 0) (hshort : x.length + y.length ≤ 65536) :
    inetChecksumValid (x ++ y) = true ↔ sum16 y % 65535 = 0 := by
  have hxle := sum16_le x
  have hyle := sum16_le y
  rw [inetChecksumValid_iff, Nat.mod_eq_of_lt (by omega), fold16_eq_iff] at hx
  rw [inetChecksumValid_iff, sum16_append heven, Nat.mod_eq_of_lt (by omega), fold16_eq_iff]
  omega

/-- The bytes of a frame from an offset of its first buffer on. -/
theorem Pbuf.drop_bytes (p : Pbuf) {k : Nat} (hk : k ≤ p.len) (hlen : p.len ≤ p.payload.length) :
    p.bytes.drop k = (p.payload.drop k).take (p.len - k) ++ p.next := by
  have htake : k ≤ (p.payload.take p.len).length := by
    rw [List.length_take]
    omega
  rw [Pbuf.bytes, List.drop_append_of_le_length htake, List.drop_take]

/-- **The checksum of a rewritten fragment** is valid over its whole header exactly when its options add
nothing to the sum. -/
theorem rewritten_valid_iff {p : Pbuf} (anchor : Anchor) (hlen : p.len ≤ p.payload.length)
    (hheader : hasIpv4Header p = true) (hihl : kIpHdrLenMin ≤ ipv4HeaderLen p) :
    inetChecksumValid (ipv4Header { p with payload := anchor.impose p.payload }) = true ↔
      sum16 (ipv4Options p) % 65535 = 0 := by
  have hlong : kEthHdrLen + kIpHdrLenMin ≤ p.len :=
    of_decide_eq_true ((Bool.and_eq_true _ _).mp hheader).1
  have hpayload : kEthHdrLen + kIpHdrLenMin ≤ p.payload.length := Nat.le_trans hlong hlen
  let q : Pbuf := { p with payload := anchor.impose p.payload }
  have hqlen : q.len ≤ q.payload.length := by
    change p.len ≤ (anchor.impose p.payload).length
    rwa [Anchor.length_impose hpayload]
  have hfixed : (q.bytes.drop kEthHdrLen).take kIpHdrLenMin =
      ((anchor.impose p.payload).drop kEthHdrLen).take kIpHdrLenMin := by
    have hshort : kIpHdrLenMin ≤
        (((anchor.impose p.payload).drop kEthHdrLen).take (p.len - kEthHdrLen)).length := by
      rw [List.length_take, List.length_drop, Anchor.length_impose hpayload]
      omega
    rw [q.drop_bytes (Nat.le_trans (Nat.le_add_right _ _) hlong) hqlen,
      List.take_append_of_le_length hshort, List.take_take, Nat.min_eq_left (by omega)]
  have hoptions : (q.bytes.drop (kEthHdrLen + kIpHdrLenMin)).take (ipv4HeaderLen p - kIpHdrLenMin) =
      ipv4Options p := by
    rw [ipv4Options, q.drop_bytes hlong hqlen, p.drop_bytes hlong hlen, Anchor.drop_impose hpayload]
  have hsplit : ipv4Header q =
      ((anchor.impose p.payload).drop kEthHdrLen).take kIpHdrLenMin ++ ipv4Options p := by
    rw [ipv4Header, Anchor.ipv4HeaderLen_impose, ← hfixed, ← hoptions, ← List.drop_drop, ← List.take_add,
      Nat.add_sub_cancel' hihl]
  have htwenty : (((anchor.impose p.payload).drop kEthHdrLen).take kIpHdrLenMin).length = 20 := by
    rw [List.length_take, List.length_drop, Anchor.length_impose hpayload, kIpHdrLenMin]
    rw [kIpHdrLenMin] at hpayload
    omega
  have hnibble : (p.payload.getD kEthHdrLen 0 &&& 0x0F).toNat ≤ 15 := by
    rw [UInt8.toNat_and]
    exact Nat.and_le_right
  have hshort : (ipv4Options p).length ≤ 60 := by
    refine Nat.le_trans (List.length_take_le _ _) ?_
    rw [ipv4HeaderLen]
    omega
  change inetChecksumValid (ipv4Header q) = true ↔ _
  rw [hsplit]
  exact inetChecksumValid_append_iff (Anchor.impose_valid hpayload) (by rw [htwenty]) (by omega)

namespace Hook

variable {σ : Type} {lwip : Stack σ} {s t : Hook σ} {p : Pbuf} {held : Option Pbuf}

/-! ## The held frame along a history -/

section Kept

variable {a b : Hook σ × Option Pbuf} {rx : List UInt8} {m : List UInt8 × Nat}

/-- The hook's slot for a held fragment. -/
def slot (s : Hook σ) : List UInt8 × Nat := (s.heldFragment, s.heldFragmentLen)

theorem slot_linkoutput : (s.linkoutput lwip rx).slot = s.slot := by
  unfold linkoutput
  dsimp only
  split <;> rfl

theorem slot_ite {c : Prop} [Decidable c] (ha : a.1.slot = m) (hb : b.1.slot = m) :
    (if c then a else b).1.slot = m := by
  split
  · exact ha
  · exact hb

theorem slot_reactArp : (s.reactArp lwip p).1.slot = s.slot := by
  refine slot_ite rfl (slot_ite slot_linkoutput (slot_ite rfl (slot_ite rfl (slot_ite ?_ ?_))))
  · have htaught : (s.senderAlreadyTaught p.payload).2.slot = s.slot := by
      unfold senderAlreadyTaught
      dsimp only
      split <;> rfl
    rw [← htaught]
    rcases s.senderAlreadyTaught p.payload with ⟨taught, u⟩
    cases taught <;> rfl
  · exact slot_ite rfl rfl

/-- Only the holding flavor writes the slot. -/
theorem slot_react (hflavor : s.flavor ≠ kIpv4FaultHoldFirstFragment) :
    (s.react lwip p).1.slot = s.slot := by
  unfold react
  cases hreaction : reaction s.flavor p with
  | arp => exact slot_reactArp
  | udp => exact slot_ite (slot_ite rfl rfl) rfl
  | icmp => exact slot_linkoutput
  | timestamp => exact slot_linkoutput
  | tcp =>
    dsimp only
    cases tcpAnswer s.flavor p.payload with
    | none => rfl
    | some flags => exact slot_linkoutput
  | dropRst => exact slot_ite rfl rfl
  | dropLast => exact slot_ite rfl rfl
  | normalise =>
    refine slot_ite (slot_ite rfl ?_) rfl
    split <;> rfl
  | hold => exact absurd (of_reaction_hold hreaction).1 hflavor
  | portBlind =>
    refine slot_ite ?_ rfl
    unfold emitSrcPortBlindAck
    dsimp only
    split
    · rfl
    · exact slot_linkoutput
  | pass => rfl

end Kept

theorem HeldAs.congr (hheld : s.HeldAs held) (hslot : t.slot = s.slot) : t.HeldAs held := by
  have hfragment : t.heldFragment = s.heldFragment := congrArg Prod.fst hslot
  have hcount : t.heldFragmentLen = s.heldFragmentLen := congrArg Prod.snd hslot
  intro hne
  rw [hcount] at hne ⊢
  rw [hfragment]
  exact hheld hne

theorem noteHeld_forwarded (flavor : UInt8) (held : Option Pbuf) (q : Pbuf) :
    noteHeld flavor held [.forwarded q] = held := by
  unfold noteHeld
  split <;> rfl

theorem noteHeld_other {flavor : UInt8} (h : flavor ≠ kIpv4FaultHoldFirstFragment)
    (effects : List Effect) : noteHeld flavor held effects = held := by
  unfold noteHeld
  exact if_neg h

/-- Under the holding flavor a frame that is not IPv4 passes. -/
theorem react_hold_other (hflavor : s.flavor = kIpv4FaultHoldFirstFragment)
    (hheader : hasIpv4Header p = false) : s.react lwip p = (s, some p) := by
  have hchoice : reaction s.flavor p = .arp ∨ reaction s.flavor p = .pass := by
    rw [hflavor]
    unfold reaction
    simp only [hheader, Bool.and_false, Bool.false_and, Bool.false_eq_true, if_false]
    split
    · exact .inl rfl
    · exact .inr rfl
  unfold react
  rcases hchoice with hr | hr
  · rw [hr]
    unfold reactArp
    rw [hflavor]
    simp [kIpv4FaultHoldFirstFragment, kArpFaultIgnoreWellFormedRequest, kArpFaultReplyToDropFrame,
      kArpFaultLearnFromDropFrame, kArpFaultIgnoreLearn, kArpFaultIgnoreUpdate, kArpFaultIgnoreGratuitous]
  · rw [hr]

theorem reaction_hold (h : hasIpv4Header p = true) :
    reaction kIpv4FaultHoldFirstFragment p = .hold := by
  have harp : isArp p.payload = false := not_isArp_of_isIpv4 ((Bool.and_eq_true _ _).mp h).2
  unfold reaction
  simp only [harp, h, Bool.and_false]
  rfl

/-- The slot after a frame under the holding flavor holds what the frame's effects say. -/
theorem heldAs_react (h : s.effects = []) (hflavor : s.flavor = kIpv4FaultHoldFirstFragment)
    (hheld : s.HeldAs held) (hlen : p.len ≤ p.payload.length) (hwhole : s.Holds p → p.next = []) :
    (s.react lwip p).1.HeldAs (noteHeld s.flavor held (disposed (s.react lwip p))) := by
  have hpass : ∀ u : Hook σ, u.effects = [] → u.slot = s.slot →
      u.HeldAs (noteHeld s.flavor held (disposed (u, some p))) := by
    intro u hu hslot
    rw [disposed, hu, List.nil_append, noteHeld_forwarded]
    exact hheld.congr hslot
  cases hheader : hasIpv4Header p with
  | false =>
    rw [react_hold_other hflavor hheader]
    exact hpass s h rfl
  | true =>
    have hreact : s.react lwip p = s.holdFirstFragment lwip p := by
      unfold react
      rw [hflavor, reaction_hold hheader]
    rw [hreact]
    unfold holdFirstFragment
    dsimp only
    split
    · next hhead =>
      -- the head is swallowed, and the slot has its bytes
      simp only [Bool.and_eq_true, beq_iff_eq, decide_eq_true_eq] at hhead
      obtain ⟨⟨hmore, hoffset⟩, hcap⟩ := hhead
      have hholds : s.Holds p := by
        refine ⟨hflavor, ?_, hcap⟩
        rw [isHeadFragment, hheader, hmore, hoffset]
        rfl
      have hresize : resize p.payload p.len = p.payload.take p.len := by
        rw [resize, Nat.sub_eq_zero_of_le hlen, List.replicate_zero, List.append_nil]
      have hwritten := take_writeAt_zero s.heldFragment (resize p.payload p.len)
      rw [length_resize] at hwritten
      intro _
      refine ⟨p, ?_, ?_⟩
      · rw [swallow, disposed, h, List.nil_append, hflavor]
        rfl
      · change (writeAt s.heldFragment 0 (resize p.payload p.len)).take p.len = p.bytes
        rw [hwritten, hresize, Pbuf.bytes, hwhole hholds, List.append_nil]
    · split
      · rcases lwip.pbufAlloc s.stack s.heldFragmentLen with ⟨allocated, stack⟩
        split
        · exact fun hne => absurd rfl hne
        · exact hpass { s with stack } h rfl
      · exact hpass s h rfl

theorem heldAs_arrive (hheld : s.HeldAs held) (a : Arrival σ)
    (hlen : a.frame.len ≤ a.frame.payload.length) (hwhole : s.Holds a.frame → a.frame.next = []) :
    (s.arrive lwip a).HeldAs (noteHeld s.flavor held (s.arrive lwip a).effects) := by
  obtain ⟨t, heffects, hflavor, -, hfragment, hcount, hout, hslot, hslotLen⟩ :=
    effects_ingressFaultInput lwip { s with stack := a.before s.stack } a.frame
  have hflavor : t.flavor = s.flavor := hflavor
  have hheld' : t.HeldAs held := hheld.congr (Prod.ext hfragment hcount)
  rw [arrive, hout]
  refine HeldAs.congr ?_ (Prod.ext hslot hslotLen)
  rw [← hflavor]
  by_cases hhold : t.flavor = kIpv4FaultHoldFirstFragment
  · have harmed : (t.flavor != kIngressFaultNone) = true := by
      rw [hhold]
      rfl
    rw [if_pos harmed]
    refine heldAs_react heffects hhold hheld' hlen fun hholds => hwhole ?_
    exact ⟨hflavor.symm.trans hholds.1, hholds.2⟩
  · rw [noteHeld_other hhold]
    exact hheld'.congr (slot_ite (slot_react hhold) rfl)

theorem follow_fst (boot : σ) (history : List (Event σ)) :
    (history.foldl (follow lwip) ({ stack := boot }, none)).1 = after lwip boot history := by
  have hrun : ∀ x : Hook σ × Option Pbuf,
      (history.foldl (follow lwip) x).1 = history.foldl (step lwip) x.1 := by
    induction history with
    | nil => exact fun _ => rfl
    | cons e history ih => exact fun x => ih _
  exact hrun _

/-- The invariant along a history: the slot holds the frame that is held. -/
theorem heldAs_after (boot : σ) {history : List (Event σ)}
    (hframes : ∀ a, .arrival a ∈ history → a.frame.len ≤ a.frame.payload.length)
    (hspared : AllSpared lwip { stack := boot } history) :
    (after lwip boot history).HeldAs (heldAfter lwip boot history) := by
  have hrun : ∀ x : Hook σ × Option Pbuf, AllSpared lwip x.1 history → x.1.HeldAs x.2 →
      (history.foldl (follow lwip) x).1.HeldAs (history.foldl (follow lwip) x).2 := by
    clear hspared
    induction history with
    | nil => exact fun _ _ h => h
    | cons e history ih =>
      intro x hspared hheld
      refine ih (fun a ha => hframes a (List.mem_cons_of_mem e ha)) (follow lwip x e) hspared.2 ?_
      cases e with
      | arm flavor => exact fun hne => absurd rfl hne
      | arrival a =>
        have hone := hspared.1
        exact heldAs_arrive hheld a (hframes a List.mem_cons_self) hone.2
  rw [← follow_fst]
  exact hrun _ hspared fun hne => absurd rfl hne

/-! ## Every frame of a history -/

theorem allSpared_append {past later : List (Event σ)} (h : AllSpared lwip s (past ++ later)) :
    AllSpared lwip s past ∧ AllSpared lwip (past.foldl (step lwip) s) later := by
  induction past generalizing s with
  | nil => exact ⟨trivial, h⟩
  | cons e past ih =>
    obtain ⟨hpast, hlater⟩ := ih h.2
    exact ⟨⟨h.1, hpast⟩, hlater⟩

theorem sound_arrive (hheld : s.HeldAs held) (a : Arrival σ)
    (hlen : a.frame.len ≤ a.frame.payload.length) (hspared : s.Spared (.arrival a)) :
    s.Sound held a.frame (s.arrive lwip a).effects := by
  obtain ⟨t, heffects, hflavor, hanchor, hfragment, hcount, hout, -, -⟩ :=
    effects_ingressFaultInput lwip { s with stack := a.before s.stack } a.frame
  have hflavor : t.flavor = s.flavor := hflavor
  have hanchor : t.anchor = s.anchor := hanchor
  have hheld' : t.HeldAs held := hheld.congr (Prod.ext hfragment hcount)
  rw [arrive, hout]
  refine ⟨fun hcontrol => ?_, accounted_ite (fun _ => accounted_react heffects hheld')
    fun _ => accounted_pass heffects, fun hrewrites => ?_⟩
  · have hpass : disposed (t, some a.frame) = [.forwarded a.frame] := by
      rw [disposed, heffects, List.nil_append]
    rw [react_control hcontrol, ite_self, hpass]
  · obtain ⟨hihl, hsum⟩ := hspared.1 hrewrites
    have ht : t.Rewrites a.frame := by
      refine ⟨hflavor.trans hrewrites.1, hrewrites.2.1, hrewrites.2.2.1, ?_⟩
      rw [hanchor]
      exact hrewrites.2.2.2
    have harmed : (t.flavor != kIngressFaultNone) = true := by
      rw [ht.1]
      rfl
    obtain ⟨anchor, hreact⟩ := @react_rewrites σ lwip t a.frame ht
    refine ⟨{ a.frame with payload := anchor.impose a.frame.payload }, ?_, ?_⟩
    · rw [if_pos harmed, hreact, disposed, heffects, List.nil_append]
    · exact (rewritten_valid_iff anchor hlen hrewrites.2.1 hihl).2 hsum

/-- **Nothing is lost, and the control channel is left alone**, in every history whose rewritten fragments
have no options that count: every frame is forwarded or swallowed once, a control frame as it came and
alone, a held head replayed ahead of a tail as it came, a rewritten fragment with a valid header. -/
theorem ingress_sound (boot : σ) {history past later : List (Event σ)} {a : Arrival σ}
    (hframes : ∀ b, .arrival b ∈ history → b.frame.len ≤ b.frame.payload.length)
    (hspared : AllSpared lwip { stack := boot } history)
    (hat : history = past ++ .arrival a :: later) :
    (after lwip boot past).Sound (heldAfter lwip boot past) a.frame
      ((after lwip boot past).arrive lwip a).effects := by
  subst hat
  obtain ⟨hpast, hone, -⟩ := allSpared_append hspared
  refine sound_arrive (heldAs_after boot (fun b hb => ?_) hpast) a (hframes a ?_) hone
  · exact hframes b (List.mem_append_left _ hb)
  · exact List.mem_append_right _ List.mem_cons_self

/-- The normalising flavor, with the head fragment that becomes its anchor. -/
def anchored : List (Event Unit) :=
  [.arm kIpv4FaultNormaliseFragTuple, .arrival ⟨fun stack => stack, headFragment 7⟩]

/-- A tail without options goes on under the anchor's tuple with a valid header. -/
theorem ingress_sound_tail : (after quietStack () anchored).Sound (heldAfter quietStack () anchored)
    (tailFragment 9) ((after quietStack () anchored).arrive quietStack
      ⟨fun stack => stack, tailFragment 9⟩).effects := by
  have hframes : ∀ b : Arrival Unit, .arrival b ∈ anchored ++ [.arrival ⟨fun stack => stack, tailFragment 9⟩] →
      b.frame.len ≤ b.frame.payload.length := by
    intro b hb
    simp only [anchored, List.cons_append, List.nil_append, List.mem_cons, List.not_mem_nil, or_false,
      reduceCtorEq, false_or, Event.arrival.injEq] at hb
    rcases hb with rfl | rfl <;> decide
  have hspared : AllSpared quietStack { stack := () }
      (anchored ++ [.arrival ⟨fun stack => stack, tailFragment 9⟩]) := by
    refine ⟨trivial, ⟨fun h => absurd h ?_, fun h => absurd h ?_⟩,
      ⟨fun _ => ⟨?_, ?_⟩, fun h => absurd h ?_⟩, trivial⟩ <;> decide
  exact ingress_sound () hframes hspared rfl

/-- A later fragment with the router alert option, its header checksum valid. -/
def optionFragment : Pbuf :=
  ⟨List.replicate 12 0 ++ [0x08, 0x00] ++ [0x46, 0, 0, 0x20, 0, 9, 0, 1, 64, 17, 0x64, 0x6B] ++
    [192, 168, 0, 2, 192, 168, 0, 1] ++ [0x94, 4, 0, 0] ++ List.replicate 8 0, 46, []⟩

/-- **A fragment with options goes on with a header lwIP throws away.** -/
theorem ingress_not_sound_options : inetChecksumValid (ipv4Header optionFragment) = true ∧
    ¬ (after quietStack () anchored).Sound (heldAfter quietStack () anchored) optionFragment
      ((after quietStack () anchored).arrive quietStack
        ⟨fun stack => stack, optionFragment⟩).effects := by
  refine ⟨?_, fun h => ?_⟩
  · rw [inetChecksumValid_iff, fold16_eq_iff]
    decide
  have hrewrites : (after quietStack () anchored).Rewrites optionFragment := by decide
  obtain ⟨q, heffects, hvalid⟩ := h.rewritten hrewrites
  have hforwarded : ((after quietStack () anchored).arrive quietStack
      ⟨fun stack => stack, optionFragment⟩).effects =
      [.forwarded { optionFragment with
        payload := (Anchor.mk 7 0 0).impose optionFragment.payload }] := by
    rfl
  rw [hforwarded] at heffects
  obtain rfl : { optionFragment with payload := (Anchor.mk 7 0 0).impose optionFragment.payload } = q := by
    injection heffects with heffect
    injection heffect
  have hsum := (rewritten_valid_iff ⟨7, 0, 0⟩ (by decide) (by decide) (by decide)).1 hvalid
  exact absurd hsum (by decide)

end Hook

end Tc8Harness.LwipDut
