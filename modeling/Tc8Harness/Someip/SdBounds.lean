import Tc8Harness.Someip.SdContext

/-!
# What the counts of a decoded payload say

`parseSd_sound_iff` puts the counters of the context against the bytes: the entries, the options stored
and where they lie, and the two totals the display takes. The total of IPv4 Endpoint options is kept in
16 bits and goes round at 65536, so it can fall below the count of those stored.
-/

namespace Tc8Harness.Someip

open BigEndian Wire StreamFraming
open SomeipTp (Buffer)

/-! ## Entries -/

theorem length_parseEntries (p : List UInt8) (declared left i : Nat) :
    (parseEntries p declared left i).length =
      min left (min (declared / 16) ((p.length - 8) / 16) - i) := by
  induction left generalizing i with
  | zero => simp [parseEntries]
  | succ left ih =>
    rw [parseEntries]
    split_ifs with hcut hdeclared
    · simp only [kSdEntrySizeBytes] at hcut
      rw [List.length_nil]
      omega
    · simp only [kSdEntrySizeBytes] at hdeclared
      rw [List.length_nil]
      omega
    · simp only [kSdEntrySizeBytes] at hcut hdeclared
      rw [List.length_cons, ih]
      omega

/-! ## Options -/

def isEndpoint (o : List UInt8) : Bool := o.getD 2 0 == kIpv4Endpoint

def isMulticast (o : List UInt8) : Bool := o.getD 2 0 == kIpv4Multicast

/-- The loop's locals after the options `seen`. -/
structure Counted (w : OptionWalk) (seen : List (List UInt8)) : Prop where
  stored : w.options.length = (seen.take kMaxSdOptions).length
  endpoints : w.endpointCount = UInt8.ofNat ((seen.take kMaxSdOptions).countP isEndpoint)
  multicasts : w.multicastCount = UInt8.ofNat ((seen.take kMaxSdOptions).countP isMulticast)
  wire : w.wireEndpoints = UInt16.ofNat (seen.countP isEndpoint)
  recorded : ∀ opt ∈ w.options, ∃ takes, ∃ o ∈ seen, opt = storedOption takes o

theorem Counted.store {w : OptionWalk} {seen : List (List UInt8)} (h : Counted w seen) (o : List UInt8) :
    Counted (w.store o) (seen ++ [o]) := by
  have hwire : (if o.getD 2 0 = kIpv4Endpoint then w.wireEndpoints + 1 else w.wireEndpoints) =
      UInt16.ofNat ((seen ++ [o]).countP isEndpoint) := by
    rw [List.countP_append, List.countP_singleton, h.wire]
    by_cases hend : o.getD 2 0 = kIpv4Endpoint
    · rw [if_pos hend, if_pos (by simpa [isEndpoint] using hend), UInt16.ofNat_add]
      rfl
    · rw [if_neg hend, if_neg (by simpa [isEndpoint] using hend), Nat.add_zero]
  unfold OptionWalk.store
  dsimp only
  by_cases hfull : w.options.length ≥ kMaxSdOptions
  · have hlong : kMaxSdOptions ≤ seen.length := by
      have hstored := h.stored
      rw [List.length_take] at hstored
      omega
    have htake : (seen ++ [o]).take kMaxSdOptions = seen.take kMaxSdOptions :=
      List.take_append_of_le_length hlong
    rw [if_pos hfull]
    refine ⟨by rw [htake]; exact h.stored, by rw [htake]; exact h.endpoints,
      by rw [htake]; exact h.multicasts, hwire, fun opt hopt => ?_⟩
    obtain ⟨takes, o', ho', hstored⟩ := h.recorded opt hopt
    exact ⟨takes, o', List.mem_append_left _ ho', hstored⟩
  · have hshort : seen.length < kMaxSdOptions := by
      have hstored := h.stored
      rw [List.length_take] at hstored
      omega
    have htake : (seen ++ [o]).take kMaxSdOptions = seen.take kMaxSdOptions ++ [o] := by
      rw [List.take_of_length_le (by rw [List.length_append, List.length_singleton]; omega),
        List.take_of_length_le (Nat.le_of_lt hshort)]
    have hcount : ∀ (isType : List UInt8 → Bool) (type : UInt8) (n : UInt8),
        (∀ o, isType o = (o.getD 2 0 == type)) →
        n = UInt8.ofNat ((seen.take kMaxSdOptions).countP isType) →
        (if o.getD 2 0 = type then n + 1 else n) =
          UInt8.ofNat (((seen ++ [o]).take kMaxSdOptions).countP isType) := by
      rintro isType type n hisType rfl
      rw [htake, List.countP_append, List.countP_singleton, hisType]
      by_cases htype : o.getD 2 0 = type
      · rw [if_pos htype, if_pos (by simpa using htype), UInt8.ofNat_add]
        rfl
      · rw [if_neg htype, if_neg (by simpa using htype), Nat.add_zero]
    rw [if_neg hfull]
    refine ⟨?_, hcount _ _ _ (fun _ => rfl) h.endpoints, hcount _ _ _ (fun _ => rfl) h.multicasts, hwire,
      fun opt hopt => ?_⟩
    · rw [htake, List.length_append, List.length_append, h.stored]
      rfl
    · rcases List.mem_append.1 hopt with hold | hnew
      · obtain ⟨takes, o', ho', hstored⟩ := h.recorded opt hold
        exact ⟨takes, o', List.mem_append_left _ ho', hstored⟩
      · exact ⟨_, o, List.mem_append_right _ (List.mem_singleton_self o), List.mem_singleton.1 hnew⟩

theorem counted_foldl (seen : List (List UInt8)) : Counted (seen.foldl OptionWalk.store {}) seen := by
  induction seen using List.reverseRecOn with
  | nil => exact ⟨rfl, rfl, rfl, rfl, nofun⟩
  | append_singleton seen o ih =>
    rw [List.foldl_append, List.foldl_cons, List.foldl_nil]
    exact ih.store o

theorem Counted.length_le {w : OptionWalk} {seen : List (List UInt8)} (h : Counted w seen) :
    w.options.length ≤ kMaxSdOptions := by
  rw [h.stored]
  exact List.length_take_le _ _

theorem toNat_optionCount {w : OptionWalk} {seen : List (List UInt8)} (h : Counted w seen) {n : UInt8}
    (hn : n = UInt8.ofNat w.options.length) : n.toNat = w.options.length := by
  have hle := h.length_le
  rw [hn, UInt8.toNat_ofNat']
  exact Nat.mod_eq_of_lt (by simp only [kMaxSdOptions] at hle; omega)

/-- The declared options array, as far as the payload has it. -/
def optionArray (p : List UInt8) : List UInt8 :=
  (p.drop (8 + readBe p 4 4 + 4)).take (readBe p (8 + readBe p 4 4) 4)

/-- The whole options in the array. -/
def wholeOptions (p : List UInt8) : List (List UInt8) := (optionParser.frames (optionArray p)).1

theorem optionArray_of_short {p : List UInt8} (h : p.length < 8 + readBe p 4 4 + 4) :
    optionArray p = [] := by
  rw [optionArray, List.drop_eq_nil_of_le (Nat.le_of_lt h), List.take_nil]

theorem field_entriesLen (p : List UInt8) : field p 4 4 0 0xFFFFFFFF = readBe p 4 4 := by
  have hlt := ofBE_lt ((p.drop 4).take 4)
  have hle : ((p.drop 4).take 4).length ≤ 4 := List.length_take_le _ _
  rw [field_zero_mod (show 0xFFFFFFFF = 2 ^ 32 - 1 from rfl)]
  exact Nat.mod_eq_of_lt (Nat.lt_of_lt_of_le hlt (Nat.pow_le_pow_right (by decide) hle))

theorem foldl_of_optionArray_nil {p : List UInt8} (h : optionArray p = []) :
    (wholeOptions p).foldl OptionWalk.store {} = {} := by
  rw [wholeOptions, h, optionParser.frames_of_none optionParser.parse_nil]
  rfl

/-- What the decoder makes of any payload: the loop sees the whole options of the array. -/
theorem parseSdInto_bytes (p : List UInt8) :
    let w := (wholeOptions p).foldl OptionWalk.store {}
    parseSdInto (.bytes p) =
      if p.length < 4 then {}
      else if p.length < 8 then
        { sdFlags := UInt8.ofNat (field p 0 1 0 0xFF)
          sdReserved := UInt32.ofNat (field p 1 3 0 0xFFFFFF) }
      else
        { sdFlags := UInt8.ofNat (field p 0 1 0 0xFF)
          sdReserved := UInt32.ofNat (field p 1 3 0 0xFFFFFF)
          sdEntriesLen := UInt32.ofNat (readBe p 4 4)
          sdOptionsLen := UInt32.ofNat
            (if 8 + readBe p 4 4 + 4 ≤ p.length then readBe p (8 + readBe p 4 4) 4 else 0)
          sdEntries := parseEntries p (readBe p 4 4) kMaxSdEntries 0
          sdOptions := w.options
          sdConfigItems := w.configItems
          sdIpv4EndpointCount := w.endpointCount
          sdIpv4MulticastCount := w.multicastCount
          sdEntryCountWire := UInt16.ofNat (min (readBe p 4 4) (p.length - 8) / kSdEntrySizeBytes)
          sdIpv4EndpointCountWire := w.wireEndpoints } := by
  intro w
  unfold parseSdInto
  dsimp only
  by_cases h4 : p.length < 4
  · rw [if_pos h4, if_pos h4]
  by_cases h8 : p.length < 8
  · rw [if_neg h4, if_neg h4, if_pos h8, if_pos h8]
  rw [if_neg h4, if_neg h4, if_neg h8, if_neg h8, field_entriesLen]
  by_cases hstart : 8 + readBe p 4 4 + 4 > p.length
  · have hw : w = {} := foldl_of_optionArray_nil (optionArray_of_short hstart)
    rw [if_pos hstart, hw]
  rw [if_neg hstart, if_pos (Nat.le_of_not_lt hstart)]
  by_cases hnone : readBe p (8 + readBe p 4 4) 4 = 0
  · have hw : w = {} := foldl_of_optionArray_nil (by rw [optionArray, hnone, List.take_zero])
    rw [if_pos hnone, hw]
  have hloop : optionLoop (optionArray p).length (optionArray p) {} = w := optionLoop_eq _ _ _
  rw [if_neg hnone]
  simp only [← hloop, optionArray]

theorem length_optionArray (p : List UInt8) : (optionArray p).length =
    min (readBe p (8 + readBe p 4 4) 4) (p.length - (8 + readBe p 4 4 + 4)) := by
  rw [optionArray, List.length_take, List.length_drop]

/-- The bytes a whole option takes lie in the array. -/
theorem wholeOptions_inside {p o : List UInt8} (ho : o ∈ wholeOptions p) :
    ∃ cursor, cursor + (3 + readBe o 0 2) ≤ readBe p (8 + readBe p 4 4) 4 ∧
      8 + readBe p 4 4 + 4 + cursor + (3 + readBe o 0 2) ≤ p.length ∧
      o = (p.drop (8 + readBe p 4 4 + 4 + cursor)).take (3 + readBe o 0 2) := by
  obtain ⟨cursor, n, hparse⟩ := optionParser.mem_frames ho
  have hle := optionParser.le hparse
  have hlen := length_optionArray p
  simp only [optionParser, Option.ite_none_left_eq_some, Option.some.injEq, Prod.mk.injEq] at hparse
  obtain ⟨-, -, rfl, rfl⟩ := hparse
  have hread : readBe (((optionArray p).drop cursor).take (3 + readBe ((optionArray p).drop cursor) 0 2))
      0 2 = readBe ((optionArray p).drop cursor) 0 2 := by
    rw [readBe, readBe, List.drop_zero, List.drop_zero, List.take_take, Nat.min_eq_left (by omega)]
  rw [hread]
  generalize readBe ((optionArray p).drop cursor) 0 2 = optLen at hle
  rw [List.length_drop, hlen] at hle
  refine ⟨cursor, by omega, by omega, ?_⟩
  rw [optionArray, List.drop_take, List.drop_drop, List.take_take, Nat.min_eq_left (by omega)]

/-! ## The counts -/

/-- The counters of a context against the payload it was decoded from. -/
structure SdBounds (p : List UInt8) (d : SdContext) : Prop where
  entryCount : d.sdEntryCount.toNat = min 8 (min (d.sdEntriesLen.toNat / 16) ((p.length - 8) / 16))
  optionCount : d.sdOptionCount.toNat ≤ 8
  byType : d.sdIpv4EndpointCount.toNat + d.sdIpv4MulticastCount.toNat ≤ d.sdOptionCount.toNat
  wire : d.sdIpv4EndpointCount.toNat ≤ d.sdIpv4EndpointCountWire.toNat
  inside : ∀ i < d.sdOptionCount.toNat, ∀ opt, d.sdOptions[i]? = some opt →
    ∃ cursor, cursor + (3 + opt.length.toNat) ≤ d.sdOptionsLen.toNat ∧
      8 + d.sdEntriesLen.toNat + 4 + cursor + (3 + opt.length.toNat) ≤ p.length ∧
      readBe p (8 + d.sdEntriesLen.toNat + 4 + cursor) 2 = opt.length.toNat ∧
      p.getD (8 + d.sdEntriesLen.toNat + 4 + cursor + 2) 0 = opt.type

theorem readBe_lt (p : List UInt8) (off size : Nat) : readBe p off size < 256 ^ size :=
  Nat.lt_of_lt_of_le (ofBE_lt _) (Nat.pow_le_pow_right (by decide) (List.length_take_le _ _))

theorem storedOption_length (takes : Bool) (o : List UInt8) :
    (storedOption takes o).length.toNat = readBe o 0 2 ∧ (storedOption takes o).type = o.getD 2 0 := by
  have hlen : (UInt16.ofNat (readBe o 0 2)).toNat = readBe o 0 2 :=
    UInt16.toNat_ofNat_of_lt' (readBe_lt o 0 2)
  unfold storedOption decodeEndpoint
  dsimp only
  split <;> split <;> exact ⟨hlen, rfl⟩

section

variable (p : List UInt8)

/-- The option fields of a context are those of the loop. -/
theorem of_parseSdInto_options :
    let w := (wholeOptions p).foldl OptionWalk.store {}
    let d := SdContext.of (parseSdInto (.bytes p))
    d.sdOptionCount = UInt8.ofNat w.options.length ∧ d.sdOptions = slots _ w.options {} ∧
      d.sdIpv4EndpointCount = w.endpointCount ∧ d.sdIpv4MulticastCount = w.multicastCount ∧
      d.sdIpv4EndpointCountWire = w.wireEndpoints := by
  intro w d
  have hshort : p.length < 8 → w = {} := fun h =>
    foldl_of_optionArray_nil (optionArray_of_short (by omega))
  simp only [d, SdContext.of, parseSdInto_bytes]
  by_cases h4 : p.length < 4
  · rw [if_pos h4, hshort (by omega)]
    exact ⟨rfl, rfl, rfl, rfl, rfl⟩
  by_cases h8 : p.length < 8
  · rw [if_neg h4, if_pos h8, hshort h8]
    exact ⟨rfl, rfl, rfl, rfl, rfl⟩
  rw [if_neg h4, if_neg h8]
  exact ⟨rfl, rfl, rfl, rfl, rfl⟩

theorem of_parseSdInto_entryCount :
    let d := SdContext.of (parseSdInto (.bytes p))
    d.sdEntryCount.toNat = min 8 (min (d.sdEntriesLen.toNat / 16) ((p.length - 8) / 16)) := by
  intro d
  simp only [d, SdContext.of, parseSdInto_bytes]
  by_cases h4 : p.length < 4
  · rw [if_pos h4]
    simp
  by_cases h8 : p.length < 8
  · rw [if_neg h4, if_pos h8]
    simp
  rw [if_neg h4, if_neg h8]
  dsimp only
  rw [length_parseEntries, UInt8.toNat_ofNat',
    UInt32.toNat_ofNat_of_lt' (show readBe p 4 4 < 2 ^ 32 from readBe_lt p 4 4), Nat.sub_zero,
    kMaxSdEntries]
  exact Nat.mod_eq_of_lt (by omega)

/-- A payload that reaches its options has both lengths read. -/
theorem of_parseSdInto_lengths (h : 8 + readBe p 4 4 + 4 ≤ p.length) :
    let d := SdContext.of (parseSdInto (.bytes p))
    d.sdEntriesLen.toNat = readBe p 4 4 ∧ d.sdOptionsLen.toNat = readBe p (8 + readBe p 4 4) 4 := by
  intro d
  simp only [d, SdContext.of, parseSdInto_bytes]
  rw [if_neg (by omega), if_neg (by omega), if_pos h]
  exact ⟨UInt32.toNat_ofNat_of_lt' (readBe_lt p 4 4), UInt32.toNat_ofNat_of_lt' (readBe_lt p _ 4)⟩

theorem of_parseSdInto_inside :
    let d := SdContext.of (parseSdInto (.bytes p))
    ∀ i < d.sdOptionCount.toNat, ∀ opt, d.sdOptions[i]? = some opt →
      ∃ cursor, cursor + (3 + opt.length.toNat) ≤ d.sdOptionsLen.toNat ∧
        8 + d.sdEntriesLen.toNat + 4 + cursor + (3 + opt.length.toNat) ≤ p.length ∧
        readBe p (8 + d.sdEntriesLen.toNat + 4 + cursor) 2 = opt.length.toNat ∧
        p.getD (8 + d.sdEntriesLen.toNat + 4 + cursor + 2) 0 = opt.type := by
  intro d i hi opt hopt
  have hcounted := counted_foldl (wholeOptions p)
  have hcount := toNat_optionCount hcounted (of_parseSdInto_options p).1
  have hslots := (of_parseSdInto_options p).2.1
  have hmem : opt ∈ ((wholeOptions p).foldl OptionWalk.store {}).options := by
    have hlt : i < ((wholeOptions p).foldl OptionWalk.store {}).options.length := by rwa [← hcount]
    rw [hslots, getElem?_slots hlt hcounted.length_le, Option.some.injEq] at hopt
    rw [← hopt]
    exact List.getElem_mem hlt
  obtain ⟨takes, o, ho, rfl⟩ := hcounted.recorded opt hmem
  obtain ⟨hlength, htype⟩ := storedOption_length takes o
  obtain ⟨cursor, harray, hpayload, hbytes⟩ := wholeOptions_inside ho
  obtain ⟨hentries, hoptions⟩ := of_parseSdInto_lengths p (by omega)
  rw [hlength, htype, hentries, hoptions]
  refine ⟨cursor, harray, hpayload, ?_, ?_⟩ <;>
    generalize 8 + readBe p 4 4 + 4 + cursor = at_ at hbytes
  · conv_rhs => rw [hbytes]
    rw [readBe, readBe, List.drop_zero, List.take_take, Nat.min_eq_left (by omega)]
  · conv_rhs => rw [hbytes]
    rw [List.getD_eq_getElem?_getD, List.getD_eq_getElem?_getD, List.getElem?_take_of_lt (by omega),
      List.getElem?_drop]

theorem of_parseSdInto_byType :
    let d := SdContext.of (parseSdInto (.bytes p))
    d.sdIpv4EndpointCount.toNat + d.sdIpv4MulticastCount.toNat ≤ d.sdOptionCount.toNat := by
  intro d
  have hcounted := counted_foldl (wholeOptions p)
  obtain ⟨hcount, -, hendpoint, hmulticast, -⟩ := of_parseSdInto_options p
  have hexclusive : ((wholeOptions p).take kMaxSdOptions).countP isMulticast ≤
      ((wholeOptions p).take kMaxSdOptions).countP fun o => ¬ isEndpoint o := by
    refine List.countP_mono_left fun o _ hmulti => ?_
    simp only [isMulticast, beq_iff_eq] at hmulti
    simp only [isEndpoint, hmulti]
    decide
  have htotal := ((wholeOptions p).take kMaxSdOptions).length_eq_countP_add_countP isEndpoint
  rw [toNat_optionCount hcounted hcount, hendpoint, hmulticast, hcounted.endpoints, hcounted.multicasts,
    hcounted.stored, UInt8.toNat_ofNat', UInt8.toNat_ofNat']
  refine Nat.le_trans (Nat.add_le_add (Nat.mod_le _ _) (Nat.mod_le _ _)) ?_
  rw [htotal]
  exact Nat.add_le_add_left hexclusive _

/-- The stored endpoints, and the endpoints there are. -/
theorem of_parseSdInto_endpoints :
    let d := SdContext.of (parseSdInto (.bytes p))
    d.sdIpv4EndpointCount.toNat = ((wholeOptions p).take 8).countP isEndpoint ∧
      d.sdIpv4EndpointCountWire.toNat = (wholeOptions p).countP isEndpoint % 65536 := by
  intro d
  have hcounted := counted_foldl (wholeOptions p)
  obtain ⟨-, -, hendpoint, -, hwire⟩ := of_parseSdInto_options p
  have hfew : ((wholeOptions p).take 8).countP isEndpoint ≤ 8 :=
    Nat.le_trans List.countP_le_length (List.length_take_le _ _)
  rw [hendpoint, hwire, hcounted.endpoints, hcounted.wire, UInt8.toNat_ofNat', UInt16.toNat_ofNat']
  exact ⟨Nat.mod_eq_of_lt (by simp only [kMaxSdOptions]; omega), rfl⟩

end

/-- **What a decoded payload reports.** Every context ends up the same, with every access in range, and
its counters are right against the payload exactly when the total of the Endpoint options, which goes
round at 65536, has not come round below those among the first eight options. -/
theorem parseSd_sound_iff (p : List UInt8) :
    (∃ out, (∀ d : SdContext, d.parseSdInto (.bytes p) = some out) ∧ SdBounds p out) ↔
      ((wholeOptions p).take 8).countP isEndpoint ≤ (wholeOptions p).countP isEndpoint % 65536 := by
  obtain ⟨hendpoint, hwire⟩ := of_parseSdInto_endpoints p
  constructor
  · rintro ⟨out, hout, hbounds⟩
    have hall := hout {}
    rw [parseSdInto_eq, Option.some.injEq] at hall
    rw [← hendpoint, ← hwire, hall]
    exact hbounds.wire
  · intro h
    refine ⟨_, fun d => parseSdInto_eq d _, ?_⟩
    have hcount := toNat_optionCount (counted_foldl (wholeOptions p)) (of_parseSdInto_options p).1
    constructor
    case entryCount => exact of_parseSdInto_entryCount p
    case optionCount =>
      rw [hcount]
      exact (counted_foldl (wholeOptions p)).length_le
    case byType => exact of_parseSdInto_byType p
    case wire => rwa [hendpoint, hwire]
    case inside => exact of_parseSdInto_inside p

/-- A payload of nothing but Endpoint options without a body, three bytes each. -/
def bareEndpoints (n : Nat) : List UInt8 := sdLayout 0xC0 0 [] (List.replicate n [0, 0, 4]).flatten

theorem endpoints_bareEndpoints {n : Nat} (hn : n * 3 < 2 ^ 32) :
    (SdContext.of (parseSdInto (.bytes (bareEndpoints n)))).sdIpv4EndpointCount = UInt8.ofNat (min 8 n) ∧
      (SdContext.of (parseSdInto (.bytes (bareEndpoints n)))).sdIpv4EndpointCountWire =
        UInt16.ofNat n := by
  have hparse : ∀ o ∈ List.replicate n ([0, 0, 4] : List UInt8), ∀ rest,
      optionParser.parse (id o ++ rest) = some (o, (id o).length) := by
    intro o ho rest
    rw [List.eq_of_mem_replicate ho]
    simp [optionParser, readBe, ofBE]
  have hframes : (optionParser.frames (List.replicate n [0, 0, 4]).flatten).1 =
      List.replicate n [0, 0, 4] := by
    rw [← List.flatMap_id, optionParser.frames_flatMap hparse, List.map_id']
  have hlength : (List.replicate n ([0, 0, 4] : List UInt8)).flatten.length = n * 3 := by
    rw [List.length_flatten, List.map_replicate, List.sum_replicate]
    rfl
  have hlayout := parseSdInto_layout 0xC0 0 [] (show ∀ e ∈ ([] : List (List UInt8)), e.length = 16 from (by simp))
    (by decide) (show (List.replicate n ([0, 0, 4] : List UInt8)).flatten.length < 2 ^ 32 by rwa [hlength])
  have hcounted := counted_foldl (List.replicate n ([0, 0, 4] : List UInt8))
  have hisEndpoint : isEndpoint [0, 0, 4] = true := rfl
  rw [List.append_nil, hframes] at hlayout
  rw [bareEndpoints, hlayout, SdContext.of]
  refine ⟨hcounted.endpoints.trans ?_, hcounted.wire.trans ?_⟩
  · rw [List.take_replicate, List.countP_replicate, if_pos hisEndpoint, kMaxSdOptions]
  · rw [List.countP_replicate, if_pos hisEndpoint]

/-- With 65536 of them the total has come round to zero. -/
theorem endpoints_come_round :
    ∃ out, (∀ d : SdContext, d.parseSdInto (.bytes (bareEndpoints 65536)) = some out) ∧
      out.sdIpv4EndpointCount = 8 ∧ out.sdIpv4EndpointCountWire = 0 ∧
      ¬ SdBounds (bareEndpoints 65536) out := by
  obtain ⟨hendpoint, hwire⟩ := endpoints_bareEndpoints (show 65536 * 3 < 2 ^ 32 by decide)
  refine ⟨_, fun d => parseSdInto_eq d _, hendpoint, hwire, fun hbounds => ?_⟩
  have hle := hbounds.wire
  rw [hendpoint, hwire] at hle
  exact absurd hle (by decide)

end Tc8Harness.Someip
