import Tc8Harness.Dissect.Decoders
import Tc8Harness.Lib.OptionArea

/-!
# What the option walks accept

`include/tc8/wire/ipv4_header.h` and `tcp_segment.h`, against the grammar of an options area: fillers and
options, up to the end of the area or to an End of Option List. Both walks are the loop of `OptionArea`,
so each field a decoder reports of the options is a statement about the longest reading of the area.
-/

namespace Tc8Harness.Wire

open BigEndian OptionArea CheckedAccess

/-! ## The walks as loops over an area -/

/-- What the IPv4 walk reports at an End of Option List. -/
def endOfList (p : List UInt8) (end_ : Nat) (at_ : Nat) : Ipv4Options :=
  { endOfListAt := some at_
    paddingNonzero := ((p.take end_).drop (at_ + 1)).any (· != 0) }

theorem walkIpv4Options_eq (p : List UInt8) (end_ steps at_ : Nat) :
    walkIpv4Options p end_ steps at_ =
      walk kIpv4OptEndOfList kIpv4OptNoOperation (fun _ _ _ => ()) (fun _ => {})
        (fun _ => { optionsMalformed := true }) (fun _ => endOfList p end_) p end_ steps at_ () := by
  induction steps generalizing at_ with
  | zero => rfl
  | succ steps ih =>
    simp only [walkIpv4Options, walk, ih]
    rfl

/-- The MSS after an option: its value, if it is a well-formed MSS option. -/
def takeMss (mss : Option UInt16) (kind : UInt8) (data : List UInt8) : Option UInt16 :=
  if kind = kTcpOptMss ∧ data.length = 2 then some (readBe16 data 0) else mss

/-- Two bytes of an option's data, read where they stand. -/
theorem readBe16_data (p : List UInt8) (i : Nat) : readBe16 ((p.drop i).take 2) 0 = readBe16 p i := by
  rw [readBe16, readBe16, readBe, readBe, List.drop_zero, List.take_take, Nat.min_self]

theorem takeMss_data {p : List UInt8} {i len : Nat} (hlen : 2 ≤ len) (h : i + len ≤ p.length)
    (mss : Option UInt16) (kind : UInt8) :
    takeMss mss kind ((p.drop (i + 2)).take (len - 2)) =
      if kind = kTcpOptMss ∧ len = 4 then some (readBe16 p (i + 2)) else mss := by
  have hlength : ((p.drop (i + 2)).take (len - 2)).length = 2 ↔ len = 4 := by
    rw [List.length_take, List.length_drop]
    omega
  simp only [takeMss, hlength]
  split
  · next hmss =>
    rw [hmss.2, readBe16_data]
  · rfl

theorem walkTcpOptions_eq {p : List UInt8} {headerLen : Nat} (h : headerLen ≤ p.length)
    (steps at_ : Nat) (mss : Option UInt16) :
    walkTcpOptions p headerLen steps at_ mss =
      walk kTcpOptEndOfList kTcpOptNoOperation takeMss (fun mss => (mss, false))
        (fun mss => (mss, true)) (fun mss _ => (mss, false)) p headerLen steps at_ mss := by
  induction steps generalizing at_ mss with
  | zero => rfl
  | succ steps ih =>
    simp only [walkTcpOptions, walk]
    split
    · rfl
    · split
      · rfl
      · split
        · exact ih (at_ + 1) mss
        · split
          · rfl
          · split
            · rfl
            · next hfits =>
              rw [ih, takeMss_data (by omega) (by omega)]

/-! ## The walks on the header alone -/

/-- `walkIpv4Options` on the bytes it may read. -/
def walkIpv4OptionsChecked (hdr : List UInt8) (end_ steps at_ : Nat) : Option Ipv4Options :=
  walkChecked kIpv4OptEndOfList kIpv4OptNoOperation (fun _ => {})
    (fun _ => { optionsMalformed := true }) (fun _ _ _ _ => some ())
    (fun _ at_ => do
      let padding ← loadRange hdr (at_ + 1) end_
      return { endOfListAt := some at_, paddingNonzero := padding.any (· != 0) })
    hdr end_ steps at_ ()

/-- `walkTcpOptions` on the bytes it may read. -/
def walkTcpOptionsChecked (hdr : List UInt8) (headerLen steps at_ : Nat) :
    Option (Option UInt16 × Bool) :=
  walkChecked kTcpOptEndOfList kTcpOptNoOperation (fun mss => (mss, false)) (fun mss => (mss, true))
    (fun mss kind at_ len =>
      if kind = kTcpOptMss ∧ len = 4 then do
        let value ← loadRange hdr (at_ + 2) (at_ + 4)
        return some (UInt16.ofNat (ofBE value))
      else some mss)
    (fun mss _ => some (mss, false)) hdr headerLen steps at_ none

theorem walkIpv4OptionsChecked_eq {p : List UInt8} {end_ steps at_ : Nat} (hend : end_ ≤ p.length)
    (hat : at_ ≤ end_) (hsteps : end_ < at_ + steps) :
    walkIpv4OptionsChecked (p.take end_) end_ steps at_ = some (walkIpv4Options p end_ steps at_) := by
  rw [walkIpv4Options_eq]
  refine walkChecked_eq _ _ _ _ _ _ hend hat hsteps () (fun _ _ _ _ _ _ => rfl) fun _ i hi => ?_
  have hload : loadRange (p.take end_) (i + 1) end_ = some ((p.take end_).drop (i + 1)) := by
    have hback : loadRange (p.take end_) (i + 1) (p.take end_).length = _ := loadRange_back (i + 1)
    rwa [List.length_take_of_le hend] at hback
  rw [bind_of_eq_some hload]
  rfl

theorem walkTcpOptionsChecked_eq {p : List UInt8} {headerLen steps at_ : Nat}
    (hend : headerLen ≤ p.length) (hat : at_ ≤ headerLen) (hsteps : headerLen < at_ + steps) :
    walkTcpOptionsChecked (p.take headerLen) headerLen steps at_ =
      some (walkTcpOptions p headerLen steps at_ none) := by
  rw [walkTcpOptions_eq hend]
  refine walkChecked_eq _ _ _ _ _ _ hend hat hsteps none ?_ fun _ _ _ => rfl
  intro mss kind i len hlen hfits
  rw [takeMss_data hlen (by omega)]
  split
  · next hmss =>
    have htwo : i + 4 - (i + 2) = 2 := by omega
    have hload : loadRange (p.take headerLen) (i + 2) (i + 4) = some ((p.drop (i + 2)).take 2) := by
      rw [loadRange, htwo, mapM_load (by rw [List.length_take_of_le hend]; omega), List.drop_take,
        List.take_take, Nat.min_eq_left (by omega)]
    rw [bind_of_eq_some hload]
    rfl
  · rfl

/-! ## What the walks report -/

theorem ipv4_nop_ne_eol : kIpv4OptNoOperation ≠ kIpv4OptEndOfList := by decide

theorem tcp_nop_ne_eol : kTcpOptNoOperation ≠ kTcpOptEndOfList := by decide

/-- The options of an IPv4 header, by the grammar of their area. -/
structure Ipv4Options.Of (area : List UInt8) (opts : Ipv4Options) : Prop where
  malformed : opts.optionsMalformed = true ↔ ¬ Accepts kIpv4OptEndOfList kIpv4OptNoOperation area
  endOfList : ∀ at_, opts.endOfListAt = some at_ ↔ ∃ items padding,
    Reads kIpv4OptEndOfList kIpv4OptNoOperation area items (kIpv4OptEndOfList :: padding) ∧
      at_ = kIpv4FixedHeaderLen + (items.flatMap (Item.bytes kIpv4OptNoOperation)).length
  padding : opts.paddingNonzero = true ↔ ∃ items padding,
    Reads kIpv4OptEndOfList kIpv4OptNoOperation area items (kIpv4OptEndOfList :: padding) ∧
      ∃ byte ∈ padding, byte ≠ 0

/-- Where an End of Option List stands, and the bytes after it. -/
theorem ended_position {p padding : List UInt8} {end_ : Nat} {items : List Item}
    (hend : end_ ≤ p.length) (h : Reads kIpv4OptEndOfList kIpv4OptNoOperation
      ((p.take end_).drop kIpv4FixedHeaderLen) items (kIpv4OptEndOfList :: padding)) :
    end_ - (padding.length + 1) =
        kIpv4FixedHeaderLen + (items.flatMap (Item.bytes kIpv4OptNoOperation)).length ∧
      (p.take end_).drop (end_ - (padding.length + 1) + 1) = padding := by
  have harea := h.area_eq
  have hlength := congrArg List.length harea
  rw [length_drop_take hend, List.length_append, List.length_cons] at hlength
  have hpos : end_ - (padding.length + 1) =
      kIpv4FixedHeaderLen + (items.flatMap (Item.bytes kIpv4OptNoOperation)).length := by omega
  refine ⟨hpos, ?_⟩
  rw [hpos, Nat.add_assoc, ← List.drop_drop, harea, ← List.drop_drop, List.drop_left]
  rfl

theorem walkIpv4Options_of {p : List UInt8} {end_ steps : Nat} (hend : end_ ≤ p.length)
    (hsteps : end_ ≤ kIpv4FixedHeaderLen + steps) :
    (walkIpv4Options p end_ steps kIpv4FixedHeaderLen).Of ((p.take end_).drop kIpv4FixedHeaderLen) := by
  obtain ⟨items, rest, hreads, hstuck, hwalk⟩ := walk_spec kIpv4OptEndOfList kIpv4OptNoOperation
    (fun _ _ _ => ()) (fun _ => {}) (fun _ => { optionsMalformed := true })
    (fun _ => endOfList p end_) hend hsteps ()
  rw [walkIpv4Options_eq, hwalk]
  refine ⟨?_, fun at_ => ?_, ?_⟩
  · rw [hreads.accepts_iff ipv4_nop_ne_eol hstuck]
    cases rest with
    | nil => simp [outcome]
    | cons byte padding => by_cases heol : byte = kIpv4OptEndOfList <;> simp [outcome, heol, endOfList]
  · rw [hreads.exists_ended_iff ipv4_nop_ne_eol hstuck fun items _ =>
      at_ = kIpv4FixedHeaderLen + (items.flatMap (Item.bytes kIpv4OptNoOperation)).length]
    cases rest with
    | nil => simp [outcome]
    | cons byte padding =>
      by_cases heol : byte = kIpv4OptEndOfList
      · subst heol
        simp [outcome, endOfList, (ended_position hend hreads).1, eq_comm]
      · simp [outcome, heol]
  · rw [hreads.exists_ended_iff ipv4_nop_ne_eol hstuck fun _ padding => ∃ byte ∈ padding, byte ≠ 0]
    cases rest with
    | nil => simp [outcome]
    | cons byte padding =>
      by_cases heol : byte = kIpv4OptEndOfList
      · subst heol
        simp [outcome, endOfList, (ended_position hend hreads).2]
      · simp [outcome, heol]

/-- The value of an MSS option. -/
def mssOf : Item → Option UInt16
  | .nop => none
  | .opt kind data => if kind = kTcpOptMss ∧ data.length = 2 then some (readBe16 data 0) else none

/-- The value of the last MSS option. -/
def lastMss (items : List Item) : Option UInt16 := (items.filterMap mssOf).getLast?

theorem foldl_takeMss (items : List Item) (mss : Option UInt16) :
    items.foldl (Item.taken takeMss) mss = (lastMss items).or mss := by
  induction items generalizing mss with
  | nil => rfl
  | cons item items ih =>
    have hlast : lastMss (item :: items) = (lastMss items).or (mssOf item) := by
      rw [lastMss, lastMss, List.filterMap_cons]
      cases mssOf item with
      | none => exact (Option.or_none ..).symm
      | some value =>
        rw [List.getLast?_cons]
        cases (items.filterMap mssOf).getLast? <;> rfl
    have hitem : Item.taken takeMss mss item = (mssOf item).or mss := by
      cases item with
      | nop => rfl
      | opt kind data =>
        rw [Item.taken, takeMss, mssOf]
        split <;> rfl
    rw [List.foldl_cons, ih, hlast, hitem, Option.or_assoc]

/-- The options of a TCP header, by the grammar of their area. -/
structure TcpSegment.OptionsOf (area : List UInt8) (mss : Option UInt16) (malformed : Bool) : Prop where
  malformed : malformed = true ↔ ¬ Accepts kTcpOptEndOfList kTcpOptNoOperation area
  longest : ∃ items, Longest kTcpOptEndOfList kTcpOptNoOperation area items
  mss : ∀ items, Longest kTcpOptEndOfList kTcpOptNoOperation area items → mss = lastMss items

theorem walkTcpOptions_of {p : List UInt8} {headerLen steps : Nat} (hend : headerLen ≤ p.length)
    (hsteps : headerLen ≤ kTcpFixedHeaderLen + steps) :
    TcpSegment.OptionsOf ((p.take headerLen).drop kTcpFixedHeaderLen)
      (walkTcpOptions p headerLen steps kTcpFixedHeaderLen none).1
      (walkTcpOptions p headerLen steps kTcpFixedHeaderLen none).2 := by
  obtain ⟨items, rest, hreads, hstuck, hwalk⟩ := walk_spec kTcpOptEndOfList kTcpOptNoOperation takeMss
    (fun mss => (mss, false)) (fun mss => (mss, true)) (fun mss _ => (mss, false)) hend hsteps none
  have hlongest := hreads.longest tcp_nop_ne_eol hstuck
  rw [walkTcpOptions_eq hend, hwalk, foldl_takeMss, Option.or_none]
  refine ⟨?_, ⟨items, hlongest⟩, fun items' hlongest' => ?_⟩
  · rw [hreads.accepts_iff tcp_nop_ne_eol hstuck]
    cases rest with
    | nil => simp [outcome]
    | cons byte padding => by_cases heol : byte = kTcpOptEndOfList <;> simp [outcome, heol]
  · rw [hlongest'.unique hlongest]
    cases rest with
    | nil => rfl
    | cons byte padding => by_cases heol : byte = kTcpOptEndOfList <;> simp [outcome, heol]

/-! ## The decoders -/

theorem decodeIpv4Header_some {p : List UInt8} {h : Ipv4Header} (hd : decodeIpv4Header p = some h) :
    kIpv4FixedHeaderLen ≤ h.headerLen ∧ h.headerLen ≤ p.length ∧ h.optionsLen = h.headerLen - kIpv4FixedHeaderLen ∧
      (⟨h.endOfListAt, h.paddingNonzero, h.optionsMalformed⟩ : Ipv4Options) =
        walkIpv4Options p h.headerLen h.headerLen kIpv4FixedHeaderLen := by
  unfold decodeIpv4Header at hd
  dsimp only at hd
  split at hd
  · nomatch hd
  · split at hd
    · nomatch hd
    · next hlen =>
      obtain rfl := Option.some.inj hd
      obtain ⟨hmin, hmax⟩ := not_or.1 hlen
      exact ⟨Nat.le_of_not_lt hmin, Nat.le_of_not_lt hmax, rfl, rfl⟩

theorem decodeIpv4Header_isSome_iff (p : List UInt8) :
    (decodeIpv4Header p).isSome ↔ kIpv4FixedHeaderLen ≤ p.length ∧
      kIpv4FixedHeaderLen ≤ 4 * (p.getD 0 0 &&& 0x0F).toNat ∧
      4 * (p.getD 0 0 &&& 0x0F).toNat ≤ p.length := by
  unfold decodeIpv4Header
  dsimp only
  split
  · next hshort => exact iff_of_false (by simp) (by omega)
  · split
    · next hlen => exact iff_of_false (by simp) (by omega)
    · next hlen => exact iff_of_true rfl (by omega)

theorem decodeTcp_some {p : List UInt8} {s : TcpSegment} (hd : decodeTcp p = some s) :
    kTcpFixedHeaderLen ≤ s.dataOffset.toNat * 4 ∧ s.dataOffset.toNat * 4 ≤ p.length ∧
      s.options = rest (p.take (s.dataOffset.toNat * 4)) kTcpFixedHeaderLen ∧
      (s.mss, s.optionsMalformed) = walkTcpOptions p (s.dataOffset.toNat * 4)
        (s.dataOffset.toNat * 4) kTcpFixedHeaderLen none := by
  unfold decodeTcp at hd
  dsimp only at hd
  split at hd
  · nomatch hd
  · split at hd
    · nomatch hd
    · next hlen =>
      obtain rfl := Option.some.inj hd
      obtain ⟨hmin, hmax⟩ := not_or.1 hlen
      exact ⟨Nat.le_of_not_lt hmin, Nat.le_of_not_lt hmax, rfl, rfl⟩

theorem decodeTcp_isSome_iff (p : List UInt8) :
    (decodeTcp p).isSome ↔ kTcpFixedHeaderLen ≤ p.length ∧
      kTcpFixedHeaderLen ≤ 4 * (p.getD 12 0 >>> 4).toNat ∧
      4 * (p.getD 12 0 >>> 4).toNat ≤ p.length := by
  unfold decodeTcp
  dsimp only
  split
  · next hshort => exact iff_of_false (by simp) (by omega)
  · split
    · next hlen => exact iff_of_false (by simp) (by omega)
    · next hlen => exact iff_of_true rfl (by omega)

/-- **The option walks accept the grammar.** A header is read exactly when its length field allows it. Its
walk ends within the header, reads nothing else, and reports of the options what their grammar says: for
IPv4 whether the area is well-formed, where its list ends and what follows it, for TCP whether the area is
well-formed and the last MSS of its longest well-formed prefix. -/
theorem optionWalks_grammar (p : List UInt8) :
    ((decodeIpv4Header p).isSome ↔ kIpv4FixedHeaderLen ≤ p.length ∧
      kIpv4FixedHeaderLen ≤ 4 * (p.getD 0 0 &&& 0x0F).toNat ∧
      4 * (p.getD 0 0 &&& 0x0F).toNat ≤ p.length) ∧
    (∀ h, decodeIpv4Header p = some h →
      walkIpv4OptionsChecked (p.take h.headerLen) h.headerLen h.headerLen kIpv4FixedHeaderLen =
        some ⟨h.endOfListAt, h.paddingNonzero, h.optionsMalformed⟩ ∧
      Ipv4Options.Of (h.optionsArea p) ⟨h.endOfListAt, h.paddingNonzero, h.optionsMalformed⟩) ∧
    ((decodeTcp p).isSome ↔ kTcpFixedHeaderLen ≤ p.length ∧
      kTcpFixedHeaderLen ≤ 4 * (p.getD 12 0 >>> 4).toNat ∧
      4 * (p.getD 12 0 >>> 4).toNat ≤ p.length) ∧
    ∀ s, decodeTcp p = some s →
      walkTcpOptionsChecked (p.take (s.dataOffset.toNat * 4)) (s.dataOffset.toNat * 4)
        (s.dataOffset.toNat * 4) kTcpFixedHeaderLen = some (s.mss, s.optionsMalformed) ∧
      TcpSegment.OptionsOf (s.options.getD []) s.mss s.optionsMalformed := by
  refine ⟨decodeIpv4Header_isSome_iff p, fun h hd => ?_, decodeTcp_isSome_iff p, fun s hd => ?_⟩
  · obtain ⟨hmin, hmax, hoptions, hwalk⟩ := decodeIpv4Header_some hd
    rw [hwalk]
    refine ⟨walkIpv4OptionsChecked_eq hmax hmin (by rw [kIpv4FixedHeaderLen]; omega), ?_⟩
    rw [Ipv4Header.optionsArea, hoptions, ← List.drop_take]
    exact walkIpv4Options_of hmax (by omega)
  · obtain ⟨hmin, hmax, hoptions, hwalk⟩ := decodeTcp_some hd
    obtain ⟨hmss, hmalformed⟩ := Prod.mk.inj hwalk
    refine ⟨?_, ?_⟩
    · rw [hwalk]
      exact walkTcpOptionsChecked_eq hmax hmin (by rw [kTcpFixedHeaderLen]; omega)
    · rw [hoptions, getD_rest, hmss, hmalformed]
      exact walkTcpOptions_of hmax (by omega)

/-- A header of 24 bytes: an option whose data is an End of Option List byte, then the list's own end. -/
def eolInData : List UInt8 := 0x46 :: List.replicate 19 0x00 ++ [0x07, 0x03, 0x00, 0x00]

theorem optionWalks_grammar_eolInData :
    ∃ h, decodeIpv4Header eolInData = some h ∧ h.endOfListAt = some 23 ∧
      Ipv4Options.Of [0x07, 0x03, 0x00, 0x00] ⟨some 23, false, false⟩ := by
  refine ⟨_, rfl, rfl, ?_⟩
  exact ((optionWalks_grammar eolInData).2.1 _ rfl).2

end Tc8Harness.Wire
