import Tc8Harness.Dut.OptionReading

/-!
# The loops over DHCP options agree

The client, the pipeline and the predicates of the captured message each have a loop of their own over the
options. All of them see the items of one reading, so they say the same of every option, up to the length
`findDhcpOption` reports: that of what it copied. `walkers_agree_iff` says for which options and which room
of the caller that is the length the others see.
-/

namespace Tc8Harness.Dut

open Wire Dissect

/-- The options end malformed or without END, and the code is not among their items. -/
def StopsShort (opts : List UInt8) (code : UInt8) : Prop :=
  ∃ items stop, Tlv.Reads 0x00 0xFF opts items stop ∧ stop ≠ .marker ∧ ∀ it ∈ items, it.1 ≠ code

/-- Exactly one of three. -/
def OneOf (p q r : Prop) : Prop := (p ∧ ¬ q ∧ ¬ r) ∨ (¬ p ∧ q ∧ ¬ r) ∨ (¬ p ∧ ¬ q ∧ r)

/-- **What the loops are to say of the options of a frame**, `findDhcpOption` being called with room for
`room4` bytes where four are wanted and for `room1` where one is. -/
structure WalkersAgree (f : Dhcpv4Frame) (room4 room1 : Nat) : Prop where
  absent : ∀ code room, OneOf (f.optionAbsent code = true)
    ((findDhcpOption f.options code room).isSome = true) (StopsShort f.options code)
  be32 : ∀ code expectedBe, f.optionBe32Equals code expectedBe = true ↔
    ∃ value, findDhcpOption f.options code room4 = some value ∧ value.length = 4 ∧
      copy32 value 0 = expectedBe
  messageType : ∀ t, f.messageType = some t ↔ findDhcpOption f.options 53 room1 = some [t]
  paramRequestList : ∀ (s : DiscoverSnapshot) (g : Dhcpv4Frame),
    (s.snapshotDiscoverFields f).optionParamRequestListMatchesDiscover g = true ↔
      firstValue f.options 55 = none ∨
        ∃ value, firstValue f.options 55 = some value ∧ firstValue g.options 55 = some value

/-- With the room, the first option of the code has the length if and only if what is copied of it has. -/
def RoomTells (opts : List UInt8) (code : UInt8) (len room : Nat) : Prop :=
  ∀ value ∈ firstValue opts code,
    len < room ∨ (room = len ∧ value.length ≤ len) ∨ (room < len ∧ value.length ≠ len)

theorem roomTells_iff {opts value : List UInt8} {code : UInt8} (hfirst : firstValue opts code = some value)
    {len room : Nat} :
    RoomTells opts code len room ↔ ((value.take room).length = len ↔ value.length = len) := by
  rw [RoomTells, hfirst]
  simp only [Option.mem_def, Option.some.injEq, forall_eq', List.length_take]
  omega

/-- What has the length cut and whole is whole. -/
theorem take_of_tells {value : List UInt8} {len room : Nat} (hcut : (value.take room).length = len)
    (hlen : value.length = len) : value.take room = value :=
  List.take_of_length_le (by rw [List.length_take] at hcut; omega)

variable {f g : Dhcpv4Frame}

/-! ## Loop by loop -/

theorem firstValue_eq_none {opts : List UInt8} {code : UInt8} :
    firstValue opts code = none ↔ ∀ it ∈ (dhcpItems opts).1, it.1 ≠ code := by
  rw [firstValue, Option.map_eq_none_iff, List.find?_eq_none]
  simp

theorem stopsShort_iff (opts : List UInt8) (code : UInt8) :
    StopsShort opts code ↔ (dhcpItems opts).2 ≠ .marker ∧ firstValue opts code = none := by
  rw [firstValue_eq_none]
  constructor
  · rintro ⟨items, stop, hreads, hstop, hitems⟩
    have hparse : dhcpItems opts = (items, stop) := hreads.parse_eq (by decide) le_rfl
    rw [hparse]
    exact ⟨hstop, hitems⟩
  · rintro ⟨hstop, hitems⟩
    exact ⟨_, _, dhcpItems_reads opts, hstop, hitems⟩

theorem optionAbsent_iff (code : UInt8) :
    f.optionAbsent code = true ↔ (dhcpItems f.options).2 = .marker ∧ firstValue f.options code = none := by
  rw [Dhcpv4Frame.optionAbsent_eq, Tlv.outcome_first, firstValue]
  cases (dhcpItems f.options).1.find? fun it => it.1 = code with
  | none =>
    simp
  | some it => simp

theorem absent_oneOf (code : UInt8) (room : Nat) :
    OneOf (f.optionAbsent code = true) ((findDhcpOption f.options code room).isSome = true)
      (StopsShort f.options code) := by
  rw [optionAbsent_iff, stopsShort_iff, findDhcpOption_eq, Option.isSome_map, OneOf]
  cases firstValue f.options code with
  | none => by_cases hstop : (dhcpItems f.options).2 = .marker <;> simp [hstop]
  | some value => simp

theorem optionBe32Equals_iff (code : UInt8) (expectedBe : UInt32) :
    f.optionBe32Equals code expectedBe = true ↔
      ∃ value, firstValue f.options code = some value ∧ value.length = 4 ∧
        copy32 value 0 = expectedBe := by
  rw [Dhcpv4Frame.optionBe32Equals_eq, Tlv.outcome_first, firstValue]
  cases (dhcpItems f.options).1.find? fun it => it.1 = code with
  | none => simp
  | some it => simp

/-- The comparison of four bytes agrees exactly where the room tells the length. -/
theorem be32_iff (room : Nat) :
    (∀ code expectedBe, f.optionBe32Equals code expectedBe = true ↔
      ∃ value, findDhcpOption f.options code room = some value ∧ value.length = 4 ∧
        copy32 value 0 = expectedBe) ↔
      ∀ code, RoomTells f.options code 4 room := by
  simp only [optionBe32Equals_iff, findDhcpOption_eq]
  constructor
  · intro h code
    cases hfirst : firstValue f.options code with
    | none => exact fun value hvalue => by rw [hfirst] at hvalue; nomatch hvalue
    | some value =>
      rw [roomTells_iff hfirst]
      constructor
      · intro hcut
        obtain ⟨value', hvalue', hlen, -⟩ := (h code (copy32 (value.take room) 0)).mpr
          ⟨value.take room, by rw [hfirst]; rfl, hcut, rfl⟩
        obtain rfl := Option.some.inj (hfirst.symm.trans hvalue')
        exact hlen
      · intro hlen
        obtain ⟨value', hvalue', hcut, -⟩ := (h code (copy32 value 0)).mp ⟨value, hfirst, hlen, rfl⟩
        rw [hfirst] at hvalue'
        obtain rfl := Option.some.inj hvalue'
        exact hcut
  · intro h code expectedBe
    cases hfirst : firstValue f.options code with
    | none => simp
    | some value =>
      have htells := (roomTells_iff hfirst).mp (h code)
      simp only [Option.some.injEq, exists_eq_left', Option.map_some, htells]
      refine and_congr_right fun hlen => ?_
      rw [take_of_tells (htells.mpr hlen) hlen]

/-! ## The Message Type -/

theorem foldl_messageTypeStep_of_ne (items : List (UInt8 × List UInt8)) (init : Option UInt8)
    (h : ∀ it ∈ items, it.1 ≠ 53) : items.foldl messageTypeStep init = init := by
  induction items generalizing init with
  | nil => rfl
  | cons it items ih =>
    have hskip : messageTypeStep init it = init := if_neg fun hcode => h it List.mem_cons_self hcode.1
    rw [List.foldl_cons, hskip]
    exact ih init fun it' hit' => h it' (List.mem_cons_of_mem it hit')

/-- With no code twice, the last Message Type is the first. -/
theorem foldl_messageTypeStep_of_nodup {items : List (UInt8 × List UInt8)}
    (h : (items.map Prod.fst).Nodup) :
    items.foldl messageTypeStep none = ((items.find? fun it => it.1 = 53).map Prod.snd).bind
      fun value => if value.length = 1 then some (value.getD 0 0) else none := by
  induction items with
  | nil => rfl
  | cons it items ih =>
    obtain ⟨hnotin, hnodup⟩ := List.nodup_cons.mp h
    by_cases hcode : it.1 = 53
    · have hrest : ∀ it' ∈ items, it'.1 ≠ 53 := by
        intro it' hit' hcode'
        exact hnotin (List.mem_map.mpr ⟨it', hit', hcode'.trans hcode.symm⟩)
      rw [List.foldl_cons, foldl_messageTypeStep_of_ne items _ hrest, List.find?_cons_of_pos (by simpa using hcode)]
      simp [messageTypeStep, hcode]
    · have hskip : messageTypeStep none it = none := if_neg fun h => hcode h.1
      rw [List.foldl_cons, hskip, ih hnodup, List.find?_cons_of_neg (by simpa using hcode)]

/-- The Message Type agrees exactly where the room tells the length. -/
theorem messageType_iff (hnodup : ((dhcpItems f.options).1.map Prod.fst).Nodup)
    (hwalk : f.messageType = (dhcpItems f.options).1.foldl messageTypeStep none) (room : Nat) :
    (∀ t, f.messageType = some t ↔ findDhcpOption f.options 53 room = some [t]) ↔
      RoomTells f.options 53 1 room := by
  have hone : ∀ (value : List UInt8) (t : UInt8), value = [t] ↔ value.length = 1 ∧ value.getD 0 0 = t := by
    intro value t
    constructor
    · rintro rfl
      exact ⟨rfl, rfl⟩
    · rintro ⟨hlen, rfl⟩
      obtain ⟨b, rfl⟩ := List.length_eq_one_iff.mp hlen
      rfl
  rw [hwalk, foldl_messageTypeStep_of_nodup hnodup, ← firstValue]
  simp only [findDhcpOption_eq]
  cases hfirst : firstValue f.options 53 with
  | none =>
    refine iff_of_true (by simp) fun value hvalue => ?_
    rw [hfirst] at hvalue
    cases hvalue
  | some value =>
    simp only [roomTells_iff hfirst, Option.bind_some, Option.map_some, Option.some.injEq,
      Option.ite_none_right_eq_some, hone]
    constructor
    · intro h
      constructor
      · intro hcut
        exact ((h ((value.take room).getD 0 0)).mpr ⟨hcut, rfl⟩).1
      · intro hlen
        exact ((h (value.getD 0 0)).mp ⟨hlen, rfl⟩).1
    · intro h t
      rw [h]
      refine and_congr_right fun hlen => ?_
      rw [take_of_tells (h.mpr hlen) hlen]

/-! ## The Parameter Request List -/

theorem firstValue_length {opts value : List UInt8} {code : UInt8}
    (h : firstValue opts code = some value) : value.length < 256 := by
  obtain ⟨it, hit, rfl⟩ := Option.map_eq_some_iff.mp h
  exact (dhcpItems_reads opts).length_lt it (List.mem_of_find?_eq_some hit)

theorem snapshotDiscoverFields_eq (s : DiscoverSnapshot) :
    ∃ s' : DiscoverSnapshot, s'.paramRequestListPresent = false ∧
      s.snapshotDiscoverFields f =
        { (((firstValue f.options 55).map s'.copyList).getD s') with taken := true } := by
  refine ⟨{ s with
    secs := f.secs, xid := f.xid, paramRequestListLen := 0, paramRequestListPresent := false }, rfl, ?_⟩
  rw [DiscoverSnapshot.snapshotDiscoverFields]
  dsimp only
  rw [Tlv.walk_eq, List.drop_zero, Tlv.outcome_first, ite_self, firstValue, Option.map_map]
  rfl

/-- The copy of the list: all of it, since the array has room for any option. -/
theorem copyList_eq (s : DiscoverSnapshot) {value : List UInt8} (h : value.length < 256) :
    (s.copyList value).paramRequestListLen.toNat = value.length ∧
      ∀ j < value.length, (s.copyList value).paramRequestList.toList.getD j 0 = value.getD j 0 := by
  have hcap : min value.length 256 = value.length := by omega
  constructor
  · rw [DiscoverSnapshot.copyList]
    dsimp only
    rw [hcap, UInt8.toNat_ofNat']
    exact Nat.mod_eq_of_lt h
  · intro j hj
    rw [List.getD_eq_getElem _ _ (by simp; omega)]
    simp [DiscoverSnapshot.copyList, hcap, hj]

theorem matchesDiscover_iff (s : DiscoverSnapshot) {value : List UInt8} (htaken : s.taken = true)
    (hpresent : s.paramRequestListPresent = true) (hlen : s.paramRequestListLen.toNat = value.length)
    (hlist : ∀ j < value.length, s.paramRequestList.toList.getD j 0 = value.getD j 0) :
    s.optionParamRequestListMatchesDiscover g = true ↔ firstValue g.options 55 = some value := by
  rw [DiscoverSnapshot.optionParamRequestListMatchesDiscover, htaken, hpresent]
  simp only [Bool.true_eq_false, if_false]
  rw [Tlv.walk_eq, List.drop_zero, Tlv.outcome_first, ite_self, firstValue, dhcpItems]
  cases (Tlv.parse 0x00 0xFF g.options.length g.options).1.find? fun it => it.1 = 55 with
  | none => simp
  | some it =>
    simp only [Option.map_some, Option.getD_some, Bool.and_eq_true, decide_eq_true_eq, hlen,
      List.all_eq_true, List.mem_range, beq_iff_eq, Option.some.injEq]
    constructor
    · rintro ⟨hsame, hbytes⟩
      refine List.ext_getElem hsame fun j hj hj' => ?_
      have hbyte := (hbytes j hj).trans (hlist j hj')
      rwa [List.getD_eq_getElem _ _ hj, List.getD_eq_getElem _ _ hj'] at hbyte
    · rintro rfl
      exact ⟨rfl, fun j hj => (hlist j hj).symm⟩

theorem paramRequestList_iff (s : DiscoverSnapshot) :
    (s.snapshotDiscoverFields f).optionParamRequestListMatchesDiscover g = true ↔
      firstValue f.options 55 = none ∨
        ∃ value, firstValue f.options 55 = some value ∧ firstValue g.options 55 = some value := by
  obtain ⟨s', habsent, hsnap⟩ := snapshotDiscoverFields_eq (f := f) s
  rw [hsnap]
  cases hfirst : firstValue f.options 55 with
  | none => simp [DiscoverSnapshot.optionParamRequestListMatchesDiscover, habsent]
  | some value =>
    obtain ⟨hlen, hlist⟩ := copyList_eq s' (firstValue_length hfirst)
    simp only [Option.map_some, Option.getD_some, reduceCtorEq, false_or, Option.some.injEq,
      exists_eq_left']
    exact matchesDiscover_iff _ rfl rfl hlen hlist

/-! ## All of them -/

/-- **The loops agree exactly where the room tells the lengths.** For the options of every frame of the
pipeline with no code twice: `optionAbsent`, `findDhcpOption` and the options that end short divide the
codes between them, and `optionBe32Equals`, the pipeline's Message Type and the comparison of the Parameter
Request List say what `findDhcpOption` says, if and only if for every code the room it is called with tells
an option of the length wanted from the others. -/
theorem walkers_agree_iff (uf : UdpFrame) (bp : List UInt8) (room4 room1 : Nat)
    (hnodup : ((dhcpItems (dhcpv4FrameFrom uf bp).options).1.map Prod.fst).Nodup) :
    WalkersAgree (dhcpv4FrameFrom uf bp) room4 room1 ↔
      (∀ code, RoomTells (dhcpv4FrameFrom uf bp).options code 4 room4) ∧
        RoomTells (dhcpv4FrameFrom uf bp).options 53 1 room1 := by
  have hwalk : (dhcpv4FrameFrom uf bp).messageType =
      (dhcpItems (dhcpv4FrameFrom uf bp).options).1.foldl messageTypeStep none := by
    have h := walkDhcpOptions_eq (dhcpv4FrameFrom uf bp).options (dhcpv4FrameFrom uf bp).options.length
      0 none
    rw [walkDhcpOptions_dhcpv4FrameFrom, List.drop_zero] at h
    exact congrArg Prod.fst h
  constructor
  · intro h
    exact ⟨(be32_iff room4).mp h.be32, (messageType_iff hnodup hwalk room1).mp h.messageType⟩
  · rintro ⟨hbe32, htype⟩
    exact ⟨absent_oneOf, (be32_iff room4).mpr hbe32, (messageType_iff hnodup hwalk room1).mpr htype,
      fun s g => paramRequestList_iff s⟩

/-- A datagram from a server to a client with the options behind the cookie. -/
def bootpWith (opts : List UInt8) : List UInt8 :=
  [2, 1, 6, 0] ++ List.replicate 232 0 ++ [0x63, 0x82, 0x53, 0x63] ++ opts

/-- The pipeline's view of it. -/
def frameWith (opts : List UInt8) : Dhcpv4Frame :=
  dhcpv4FrameFrom
    { envelope := ⟨0, 64, 0, 0, 0⟩, srcIp := 0x0100000A, dstIp := 0xFFFFFFFF
      udp := ⟨67, 68, UInt16.ofNat (8 + (bootpWith opts).length), 0, some (bootpWith opts)⟩
      ethSrc := [2, 0, 0, 0, 0, 1], ethDst := List.replicate 6 0xFF, observedTsUs := 0, vlan := {} }
    (bootpWith opts)

/-- An ACK with a server identifier, read with the room `pollForReply` has. -/
theorem walkers_agree_iff_ack :
    (frameWith [53, 1, 5, 54, 4, 10, 0, 0, 1, 255]).messageType = some 5 ∧
    WalkersAgree (frameWith [53, 1, 5, 54, 4, 10, 0, 0, 1, 255]) 4 1 := by
  have hitems : dhcpItems (frameWith [53, 1, 5, 54, 4, 10, 0, 0, 1, 255]).options =
      ([(53, [5]), (54, [10, 0, 0, 1])], .marker) := by decide +kernel
  refine ⟨by decide +kernel, (walkers_agree_iff _ _ 4 1 ?_).mpr ⟨?_, ?_⟩⟩
  · change ((dhcpItems (frameWith [53, 1, 5, 54, 4, 10, 0, 0, 1, 255]).options).1.map Prod.fst).Nodup
    rw [hitems]
    decide
  · intro code value hvalue
    refine .inr (.inl ⟨rfl, ?_⟩)
    obtain ⟨it, hit, rfl⟩ := Option.map_eq_some_iff.mp hvalue
    have hmem : it ∈ (dhcpItems (frameWith [53, 1, 5, 54, 4, 10, 0, 0, 1, 255]).options).1 :=
      List.mem_of_find?_eq_some hit
    rw [hitems] at hmem
    simp only [List.mem_cons, List.not_mem_nil, or_false] at hmem
    rcases hmem with rfl | rfl <;> decide
  · intro value hvalue
    have hfirst : firstValue (frameWith [53, 1, 5, 54, 4, 10, 0, 0, 1, 255]).options 53 = some [5] := by
      rw [firstValue, hitems]
      rfl
    obtain rfl := Option.some.inj (hfirst.symm.trans hvalue)
    exact .inr (.inl ⟨rfl, le_rfl⟩)

/-- **A Message Type of two bytes divides them.** The pipeline sees none, and `findDhcpOption` with room
for one byte finds one of one byte. -/
theorem not_walkers_agree_long_type :
    ((dhcpItems (frameWith [53, 2, 5, 9, 255]).options).1.map Prod.fst).Nodup ∧
    (frameWith [53, 2, 5, 9, 255]).messageType = none ∧
    findDhcpOption (frameWith [53, 2, 5, 9, 255]).options 53 1 = some [5] ∧
    ¬ WalkersAgree (frameWith [53, 2, 5, 9, 255]) 4 1 := by
  have hnone : (frameWith [53, 2, 5, 9, 255]).messageType = none := by decide +kernel
  have hfound : findDhcpOption (frameWith [53, 2, 5, 9, 255]).options 53 1 = some [5] := by
    decide +kernel
  refine ⟨by decide +kernel, hnone, hfound, fun h => ?_⟩
  have hsome := (h.messageType 5).mpr hfound
  rw [hnone] at hsome
  nomatch hsome

end Tc8Harness.Dut
