import Tc8Harness.Stimulus.SdBuilder

/-!
# SD messages read back

What `parseSdInto` reads from the messages of the SD builders. Entries come back field by field
(`decode_entryLayout`), options through the option walk (`foldl_store`): the decoder keeps the type
and the length of every option, the rest of it only for the endpoint types and for the first
Configuration option. `subscribe_roundTrip` and `offer_roundTrip` are the two round trips;
`configuration_roundTrip` adds the lookup of configuration items by key.
-/

namespace Tc8Harness.Stimulus

open BigEndian Wire Someip StreamFraming
open SomeipTp (Buffer)

/-! ## Entries -/

/-- Both entry formats: twelve common bytes, then a tail of four. -/
def entryLayout (type indexFirst indexSecond run : UInt8) (serviceId instanceId : UInt16)
    (majorVersion : UInt8) (ttl : UInt32) (tail : List UInt8) : List UInt8 :=
  [type, indexFirst, indexSecond, run] ++ (putBe16 serviceId ++ (putBe16 instanceId ++
    ([majorVersion] ++ (putBe24 ttl ++ tail))))

/-- A byte field reads the byte. -/
theorem field_byte {src : List UInt8} {off : Nat} {v : UInt8} (h : readBe src off 1 = v.toNat) :
    UInt8.ofNat (field src off 1 0 0xFF) = v := by
  rw [field_zero_mod (show 0xFF = 2 ^ 8 - 1 from rfl), h, Nat.mod_eq_of_lt v.toNat_lt,
    UInt8.ofNat_toNat]

theorem field_word {src : List UInt8} {off : Nat} {v : UInt16} (h : readBe src off 2 = v.toNat) :
    UInt16.ofNat (field src off 2 0 0xFFFF) = v := by
  rw [field_zero_mod (show 0xFFFF = 2 ^ 16 - 1 from rfl), h, Nat.mod_eq_of_lt v.toNat_lt,
    UInt16.ofNat_toNat]

section Entry

variable (type indexFirst indexSecond run : UInt8) (serviceId instanceId : UInt16)
  (majorVersion : UInt8) (ttl : UInt32) (tail : List UInt8)

/-- The common fields of an entry read back as written. -/
theorem decode_entryLayout (httl : ttl.toNat ≤ 0xFFFFFF) :
    let d := decodeSdEntry (entryLayout type indexFirst indexSecond run serviceId instanceId
      majorVersion ttl tail)
    d.type = type ∧ d.indexFirst = indexFirst ∧ d.indexSecond = indexSecond ∧
      d.numOpt1 = UInt8.ofNat (run.toNat >>> 4 &&& 0x0F) ∧
      d.numOpt2 = UInt8.ofNat (run.toNat &&& 0x0F) ∧ d.serviceId = serviceId ∧
      d.instanceId = instanceId ∧ d.majorVersion = majorVersion ∧ d.ttl = ttl := by
  intro d
  have hrun : readBe (entryLayout type indexFirst indexSecond run serviceId instanceId majorVersion
      ttl tail) 3 1 = run.toNat := readBe_singleton run
  have httlField : readBe (entryLayout type indexFirst indexSecond run serviceId instanceId
      majorVersion ttl tail) 9 3 = ttl.toNat := by
    simp (disch := simp) only [entryLayout, readBe_append_right, List.length_cons, List.length_nil,
      length_putBe16, Nat.reduceAdd, Nat.reduceSub, readBe_putBe24]
    exact Nat.mod_eq_of_lt (by omega)
  refine ⟨field_byte (readBe_singleton type), field_byte (readBe_singleton indexFirst),
    field_byte (readBe_singleton indexSecond), ?_, ?_, field_word ?_, field_word ?_,
    field_byte ?_, ?_⟩
  · simp only [d, decodeSdEntry, field, hrun]
  · simp only [d, decodeSdEntry, field, hrun, Nat.shiftRight_zero]
  · simp (disch := simp) only [entryLayout, readBe_append_right, List.length_cons, List.length_nil,
      Nat.reduceAdd, Nat.reduceSub, readBe_putBe16]
  · simp (disch := simp) only [entryLayout, readBe_append_right, List.length_cons, List.length_nil,
      length_putBe16, Nat.reduceAdd, Nat.reduceSub, readBe_putBe16]
  · simp (disch := simp) only [entryLayout, readBe_append_right, List.length_cons, List.length_nil,
      length_putBe16, Nat.reduceAdd, Nat.reduceSub]
    exact readBe_singleton majorVersion
  · simp only [d, decodeSdEntry]
    rw [field_zero_mod (show 0xFFFFFF = 2 ^ 24 - 1 from rfl), httlField, Nat.mod_eq_of_lt (by omega),
      UInt32.ofNat_toNat]

/-- The tail is read from the tail. -/
theorem readBe_entryLayout_tail {off size : Nat} :
    readBe (entryLayout type indexFirst indexSecond run serviceId instanceId majorVersion ttl tail)
      (12 + off) size = readBe tail off size := by
  have hsplit : entryLayout type indexFirst indexSecond run serviceId instanceId majorVersion ttl
      tail = ([type, indexFirst, indexSecond, run] ++ (putBe16 serviceId ++ (putBe16 instanceId ++
        ([majorVersion] ++ putBe24 ttl)))) ++ tail := by simp [entryLayout]
  rw [hsplit, readBe_append_right (by simp)]
  simp

end Entry

/-- The word of Reserved and Counter. -/
theorem reservedCounter_toNat (entryReserved : UInt16) (counter : UInt8) :
    (reservedCounter entryReserved counter).toNat =
      entryReserved.toNat % 4096 * 16 + counter.toNat % 16 := by
  have hreserved : (entryReserved &&& 0x0FFF).toNat = entryReserved.toNat % 4096 := by
    rw [UInt16.toNat_and]
    exact Nat.and_two_pow_sub_one_eq_mod _ 12
  have hcounter : (counter &&& 0x0F).toNat = counter.toNat % 16 := by
    rw [UInt8.toNat_and]
    exact Nat.and_two_pow_sub_one_eq_mod _ 4
  have hshift : ((entryReserved &&& 0x0FFF) <<< 4).toNat = 2 ^ 4 * (entryReserved.toNat % 4096) := by
    rw [UInt16.toNat_shiftLeft, hreserved]
    simp only [UInt16.reduceToNat, Nat.reduceMod, Nat.shiftLeft_eq]
    omega
  rw [reservedCounter, UInt16.toNat_or, hshift, UInt8.toNat_toUInt16, hcounter,
    ← Nat.two_pow_add_eq_or_of_lt (by omega)]
  omega

/-- A Subscribe entry reads back, Counter and Reserved to their widths. -/
theorem decodeSdEntry_subscribe (p : SubscribeEventgroupParams) (httl : p.target.ttl.toNat ≤ 0xFFFFFF) :
    let d := decodeSdEntry (appendSdType2Entry p.entry)
    d.type = kSubscribeEventgroup ∧ d.serviceId = p.target.serviceId ∧
      d.instanceId = p.target.instanceId ∧ d.majorVersion = p.target.majorVersion ∧
      d.ttl = p.target.ttl ∧ d.counter.toNat = p.target.counter.toNat % 16 ∧
      d.entryReserved.toNat = (p.target.entryReserved.getD 0).toNat % 4096 ∧
      d.eventgroupId = p.target.eventgroupId := by
  intro d
  let tail := putBe16 (reservedCounter p.entry.entryReserved p.entry.counter) ++
    putBe16 p.entry.eventgroupId
  have hentry : appendSdType2Entry p.entry = entryLayout p.entry.entryType p.entry.indexFirstRun
      p.entry.indexSecondRun p.entry.optionRun p.entry.serviceId p.entry.instanceId
      p.entry.majorVersion p.entry.ttl tail := rfl
  obtain ⟨htype, -, -, -, -, hservice, hinstance, hmajor, httl'⟩ := decode_entryLayout
    p.entry.entryType p.entry.indexFirstRun p.entry.indexSecondRun p.entry.optionRun
    p.entry.serviceId p.entry.instanceId p.entry.majorVersion p.entry.ttl tail httl
  have hword : readBe (appendSdType2Entry p.entry) 12 2 =
      (p.target.entryReserved.getD 0).toNat % 4096 * 16 + p.target.counter.toNat % 16 := by
    rw [hentry, show 12 = 12 + 0 from rfl, readBe_entryLayout_tail, readBe_putBe16,
      reservedCounter_toNat]
    rfl
  refine ⟨htype, hservice, hinstance, hmajor, httl', ?_, ?_, field_word ?_⟩
  · simp only [d, decodeSdEntry]
    rw [field_zero_mod (show 0x0F = 2 ^ 4 - 1 from rfl), hword, UInt8.toNat_ofNat']
    omega
  · simp only [d, decodeSdEntry, field, hword]
    rw [show 0x0FFF = 2 ^ 12 - 1 from rfl, Nat.and_two_pow_sub_one_eq_mod, Nat.shiftRight_eq_div_pow,
      UInt16.toNat_ofNat']
    omega
  · rw [hentry, show 14 = 12 + 2 from rfl, readBe_entryLayout_tail, readBe_append_right (by simp)]
    simp only [length_putBe16, Nat.sub_self]
    rw [← List.append_nil (putBe16 p.entry.eventgroupId), readBe_putBe16]
    rfl

/-! ## Options -/

/-- What the decoder keeps of an option. `configSeen` says that a Configuration option came before. -/
def decodedOption (configSeen : Bool) (o : SdExtraOption) : SdOption :=
  let dst : SdOption := { length := UInt16.ofNat (1 + o.body.length), type := o.type }
  if (o.type = kIpv4Endpoint ∨ o.type = kIpv4Multicast ∨ o.type = kIpv4SdEndpoint) ∧
      8 ≤ o.body.length then
    { dst with
      reserved1 := o.reserved
      ipv4 := copy32 o.body 0
      reserved2 := o.body.getD 4 0
      l4Proto := o.body.getD 5 0
      port := readBe16 o.body 6 }
  else if o.type = kConfiguration ∧ configSeen = false then { dst with reserved1 := o.reserved }
  else dst

/-- The decoded option array: the first Configuration option is read, later ones are not. -/
def decodedOptions (configSeen : Bool) (options : List SdExtraOption) : List SdOption :=
  options.mapIdx fun i o =>
    decodedOption (configSeen || (options.take i).any fun o => o.type == kConfiguration) o

theorem decodedOptions_cons (configSeen : Bool) (o : SdExtraOption) (options : List SdExtraOption) :
    decodedOptions configSeen (o :: options) = decodedOption configSeen o ::
      decodedOptions (configSeen || o.type == kConfiguration) options := by
  simp [decodedOptions, List.mapIdx_cons, Bool.or_assoc]

section Option

variable {o : SdExtraOption}

theorem readBe_optionLength (h : o.body.length < 65535) (rest : List UInt8) :
    readBe (appendSdExtraOption o ++ rest) 0 2 = 1 + o.body.length := by
  rw [appendSdExtraOption, appendOption, List.append_assoc, readBe_putBe16]
  exact UInt16.toNat_ofNat_of_lt' (by simp only [UInt16.size]; omega)

theorem readBe_byte (src : List UInt8) (off : Nat) : readBe src off 1 = (src.getD off 0).toNat := by
  rw [List.getD_eq_getElem?_getD]
  cases hget : src[off]? with
  | none =>
    have hle : src.length ≤ off := List.getElem?_eq_none_iff.1 hget
    simp [readBe, List.drop_eq_nil_of_le hle, ofBE]
  | some v =>
    obtain ⟨hlt, rfl⟩ := List.getElem?_eq_some_iff.1 hget
    rw [readBe, List.drop_eq_getElem_cons hlt, List.take_succ_cons, List.take_zero]
    simp [ofBE]

/-- One option is taken off the array whole. -/
theorem parse_appendSdExtraOption (h : o.body.length < 65535) (rest : List UInt8) :
    optionParser.parse (appendSdExtraOption o ++ rest) =
      some (appendSdExtraOption o, (appendSdExtraOption o).length) := by
  have htotal : 3 + readBe (appendSdExtraOption o ++ rest) 0 2 = (appendSdExtraOption o).length := by
    rw [readBe_optionLength h, appendSdExtraOption, length_appendOption]
    omega
  have hlong : (appendSdExtraOption o).length ≤ (appendSdExtraOption o ++ rest).length := by
    rw [List.length_append]
    omega
  have hthree : 3 ≤ (appendSdExtraOption o).length := by omega
  simp only [optionParser, htotal]
  rw [if_neg (by omega), if_neg (by omega), List.take_left]

theorem decodeEndpoint_appendSdExtraOption (dst : SdOption) :
    decodeEndpoint dst (appendSdExtraOption o) =
      { dst with
        reserved1 := o.reserved
        ipv4 := copy32 o.body 0
        reserved2 := o.body.getD 4 0
        l4Proto := o.body.getD 5 0
        port := readBe16 o.body 6 } := by
  have hbyte : ∀ i, UInt8.ofNat (field (appendSdExtraOption o) i 1 0 0xFF) =
      (appendSdExtraOption o).getD i 0 := fun i => field_byte (readBe_byte _ i)
  have hport : UInt16.ofNat (field (appendSdExtraOption o) 10 2 0 0xFFFF) = readBe16 o.body 6 := by
    rw [field_zero_mod (show 0xFFFF = 2 ^ 16 - 1 from rfl)]
    apply UInt16.toNat_inj.1
    rw [UInt16.toNat_ofNat', Nat.mod_mod]
    exact (UInt16.toNat_ofNat').symm
  simp only [decodeEndpoint, hbyte, hport]
  rfl

private theorem kConfiguration_not_endpoint : kConfiguration ≠ kIpv4Endpoint ∧
    kConfiguration ≠ kIpv4Multicast ∧ kConfiguration ≠ kIpv4SdEndpoint := by decide

/-- The option stored for a built one. -/
theorem storedOption_appendSdExtraOption (h : o.body.length < 65535) (configSeen : Bool) :
    storedOption (o.type == kConfiguration && !configSeen) (appendSdExtraOption o) =
      decodedOption configSeen o := by
  have hlen : readBe (appendSdExtraOption o) 0 2 = 1 + o.body.length := by
    rw [← List.append_nil (appendSdExtraOption o), readBe_optionLength h]
  have htype : (appendSdExtraOption o).getD 2 0 = o.type := rfl
  have hreserved : (appendSdExtraOption o).getD 3 0 = o.reserved := rfl
  have hlong : 3 + (1 + o.body.length) ≥ 12 ↔ 8 ≤ o.body.length := by omega
  simp only [storedOption, hlen, htype, hreserved, hlong, decodeEndpoint_appendSdExtraOption]
  unfold decodedOption
  by_cases hconfig : o.type = kConfiguration
  · obtain ⟨h1, h2, h3⟩ := kConfiguration_not_endpoint
    cases configSeen <;> simp [hconfig, h1, h2, h3]
  · simp [hconfig]

/-- The body of the decoder's loop on one built option. -/
theorem store_appendSdExtraOption (h : o.body.length < 65535) (w : OptionWalk)
    (hroom : w.options.length < 8) :
    let w' := w.store (appendSdExtraOption o)
    w'.options = w.options ++ [decodedOption w.configSeen o] ∧
      w'.configSeen = (w.configSeen || o.type == kConfiguration) ∧
      w'.configItems =
        if o.type == kConfiguration && !w.configSeen then
          parseConfigItems kMaxSdConfigItems o.body
        else w.configItems := by
  intro w'
  have hlen : readBe (appendSdExtraOption o) 0 2 = 1 + o.body.length := by
    rw [← List.append_nil (appendSdExtraOption o), readBe_optionLength h]
  have htakes : w.takesConfig (appendSdExtraOption o) =
      (o.type == kConfiguration && !w.configSeen) := by
    have htype : (appendSdExtraOption o).getD 2 0 = o.type := rfl
    rw [OptionWalk.takesConfig, htype, hlen]
    simp
  have hcap : ¬ w.options.length ≥ kMaxSdOptions := by
    simp only [kMaxSdOptions]
    omega
  simp only [w', OptionWalk.store, if_neg hcap, htakes, storedOption_appendSdExtraOption h]
  refine ⟨trivial, ?_, rfl⟩
  cases w.configSeen <;> simp

end Option

/-- The decoder's loop over built options, while they fit its cap. -/
theorem foldl_store {options : List SdExtraOption} (h : ∀ o ∈ options, o.body.length < 65535)
    (w : OptionWalk) (hroom : w.options.length + options.length ≤ 8) :
    ((options.map appendSdExtraOption).foldl OptionWalk.store w).options =
      w.options ++ decodedOptions w.configSeen options := by
  induction options generalizing w with
  | nil => simp [decodedOptions]
  | cons o options ih =>
    rw [List.length_cons] at hroom
    obtain ⟨hoptions, hseen, -⟩ :=
      store_appendSdExtraOption (h o List.mem_cons_self) w (by omega)
    have hnext : (w.store (appendSdExtraOption o)).options.length + options.length ≤ 8 := by
      rw [hoptions, List.length_append, List.length_singleton]
      omega
    rw [List.map_cons, List.foldl_cons, ih (fun o ho => h o (List.mem_cons_of_mem _ ho)) _ hnext,
      hoptions, hseen, decodedOptions_cons, List.append_assoc, List.singleton_append]

theorem frames_options {options : List SdExtraOption} (h : ∀ o ∈ options, o.body.length < 65535) :
    optionParser.frames (options.flatMap appendSdExtraOption) =
      (options.map appendSdExtraOption, []) :=
  optionParser.frames_flatMap fun o ho rest => parse_appendSdExtraOption (h o ho) rest

theorem length_flatMap_appendSdExtraOption {options : List SdExtraOption}
    (h : ∀ o ∈ options, o.body.length < 65535) (hcount : options.length ≤ 8) :
    (options.flatMap appendSdExtraOption).length < 2 ^ 32 := by
  have hle : (options.flatMap appendSdExtraOption).length ≤ options.length * 65540 := by
    rw [List.length_flatMap, ← smul_eq_mul, ← List.length_map (f := fun o => (appendSdExtraOption o).length)]
    apply List.sum_le_card_nsmul
    intro n hn
    obtain ⟨o, ho, rfl⟩ := List.mem_map.1 hn
    have := h o ho
    rw [appendSdExtraOption, length_appendOption]
    omega
  omega

/-- What the decoder makes of a built message behind its SOME/IP header. -/
theorem parseSdInto_message (h : Header) (flags : UInt8) (reserved : UInt32)
    {entries : List (List UInt8)} {options : List SdExtraOption} (trailing : List UInt8)
    (hentry : ∀ e ∈ entries, e.length = 16) (hentries : entries.length ≤ 8)
    (hbodies : ∀ o ∈ options, o.body.length < 65535) (hoptions : options.length ≤ 8) :
    let d := parseSdInto (.bytes ((appendHeader h ++
      (sdLayout flags reserved entries (options.flatMap appendSdExtraOption) ++ trailing)).drop 16))
    d.sdEntries = entries.map decodeSdEntry ∧ d.sdOptions = decodedOptions false options ∧
      d.sdConfigItems = ((options.map appendSdExtraOption).foldl OptionWalk.store {}).configItems := by
  intro d
  have hd := parseSdInto_layout flags reserved trailing hentry (by omega)
    (length_flatMap_appendSdExtraOption hbodies hoptions)
  rw [frames_options hbodies] at hd
  simp only [d, List.drop_left' (length_appendHeader h), hd]
  refine ⟨?_, ?_, trivial⟩
  · exact congrArg (List.map decodeSdEntry) (List.take_of_length_le hentries)
  · rw [foldl_store hbodies {} (by simpa using hoptions), List.nil_append]

/-! ## Subscribe -/

/-- An endpoint option as the decoder reads it. -/
def decodedEndpoint (ep : Ipv4Endpoint) (reserved1 reserved2 : UInt8) : SdOption :=
  { length := 9
    type := kIpv4Endpoint
    reserved1 := reserved1
    ipv4 := ep.ipv4Be
    reserved2 := reserved2
    l4Proto := ep.l4proto
    port := ep.port }

/-- An endpoint survives the option that carries it. -/
theorem decodedOption_endpoint (configSeen : Bool) (ep : Ipv4Endpoint) (reserved1 reserved2 : UInt8) :
    decodedOption configSeen
      { type := kIpv4Endpoint
        reserved := reserved1
        body := bytes32 ep.ipv4Be ++ ([reserved2, ep.l4proto] ++ putBe16 ep.port) } =
      decodedEndpoint ep reserved1 reserved2 := by
  have hlen : (bytes32 ep.ipv4Be ++ ([reserved2, ep.l4proto] ++ putBe16 ep.port)).length = 8 := by
    simp
  have hport : readBe16 (bytes32 ep.ipv4Be ++ ([reserved2, ep.l4proto] ++ putBe16 ep.port)) 6 =
      ep.port := by
    rw [readBe16, readBe_append_right (by simp), readBe_append_right (by simp)]
    simp only [length_bytes32, List.length_cons, List.length_nil, Nat.reduceAdd, Nat.reduceSub]
    rw [← List.append_nil (putBe16 ep.port), readBe_putBe16, UInt16.ofNat_toNat]
  simp only [decodedOption, true_or, hlen, le_refl, and_self, if_true, copy32_bytes32, hport]
  rfl

theorem decodedOptions_options (p : SubscribeEventgroupParams) :
    decodedOptions false p.options =
      decodedEndpoint p.testerEndpoint (p.optionReserved0Override.getD 0)
        (p.optionReserved1Override.getD 0) ::
      ((p.secondEndpoint.map fun ep => decodedEndpoint ep 0 0).toList ++
        decodedOptions false p.extraOptions) := by
  have hnot : (kIpv4Endpoint == kConfiguration) = false := by decide
  rw [SubscribeEventgroupParams.options, decodedOptions_cons, decodedOption_endpoint, hnot]
  cases p.secondEndpoint with
  | none => rfl
  | some ep =>
    have hsecond : decodedOption false ep.option = decodedEndpoint ep 0 0 :=
      decodedOption_endpoint false ep 0 0
    have htype : (ep.option.type == kConfiguration) = false := hnot
    simp only [Option.map_some, Option.toList_some, List.singleton_append, Bool.or_false,
      decodedOptions_cons, hsecond, htype]

theorem body_options_lt {p : SubscribeEventgroupParams}
    (hbody : ∀ o ∈ p.extraOptions, o.body.length < 65535) :
    ∀ o ∈ p.options, o.body.length < 65535 := by
  intro o ho
  simp only [SubscribeEventgroupParams.options, List.mem_cons, List.mem_append,
    Option.mem_toList, Option.map_eq_some_iff] at ho
  rcases ho with rfl | ⟨ep, -, rfl⟩ | ho
  · simp
  · rw [Ipv4Endpoint.option, length_sdIpv4OptionBody]
    omega
  · exact hbody o ho

theorem length_buildSubscribeEventgroup {p : SubscribeEventgroupParams} (hp : p.Canonical) :
    (buildSubscribeEventgroup p).length =
      44 + (p.options.flatMap appendSdExtraOption).length + p.extraTrailingPayload.length := by
  rw [buildSubscribeEventgroup_layout hp]
  simp only [List.length_append, length_appendHeader, sdLayout, List.length_cons, List.length_nil,
    length_putBe24, length_putBe32, List.flatten_cons, List.flatten_nil, List.append_nil,
    length_appendSdType2Entry]
  omega

/-- **A Subscribe reads back.** For parameters without an override of a length, a count or a type,
the header parses and its Length is the number of bytes behind it that are counted, to 32 bits; the SD
payload holds the one entry and, in order, the endpoints and the extra options. Of an extra option the
decoder keeps what `decodedOption` says: always the type and the length, the Reserved byte, address,
protocol and port of the endpoint types with a full body, and the Reserved byte of the first
Configuration option. -/
theorem subscribe_roundTrip (p : SubscribeEventgroupParams) (hp : p.Canonical)
    (httl : p.target.ttl.toNat ≤ 0xFFFFFF) (hcount : p.options.length ≤ 8)
    (hbody : ∀ o ∈ p.extraOptions, o.body.length < 65535) :
    let bytes := buildSubscribeEventgroup p
    let uncounted := if p.extraTrailingInLength then 0 else p.extraTrailingPayload.length
    let d := parseSdInto (.bytes (bytes.drop 16))
    (∃ h, parseHeader (.bytes bytes) = some h ∧
      h.length.toNat = (bytes.length - 8 - uncounted) % 2 ^ 32) ∧
    (∃ e, d.sdEntries = [e] ∧ e.type = kSubscribeEventgroup ∧ e.serviceId = p.target.serviceId ∧
      e.instanceId = p.target.instanceId ∧ e.majorVersion = p.target.majorVersion ∧
      e.ttl = p.target.ttl ∧ e.counter.toNat = p.target.counter.toNat % 16 ∧
      e.entryReserved.toNat = (p.target.entryReserved.getD 0).toNat % 4096 ∧
      e.eventgroupId = p.target.eventgroupId) ∧
    d.sdOptions =
      decodedEndpoint p.testerEndpoint (p.optionReserved0Override.getD 0)
        (p.optionReserved1Override.getD 0) ::
      ((p.secondEndpoint.map fun ep => decodedEndpoint ep 0 0).toList ++
        decodedOptions false p.extraOptions) := by
  intro bytes uncounted d
  have hlayout : bytes = _ := buildSubscribeEventgroup_layout hp
  have hlen : bytes.length = _ := length_buildSubscribeEventgroup hp
  obtain ⟨hentries, hoptions, -⟩ := parseSdInto_message (sdHeader p.sessionId
    (UInt32.ofNat (36 + (p.options.flatMap appendSdExtraOption).length +
      if p.extraTrailingInLength then p.extraTrailingPayload.length else 0))
    (p.methodIdOverride.getD kSdMethodId)) p.sdFlags 0 p.extraTrailingPayload
    (by simpa using length_appendSdType2Entry p.entry :
      ∀ e ∈ [appendSdType2Entry p.entry], e.length = 16) (by simp) (body_options_lt hbody) hcount
  rw [← hlayout] at hentries hoptions
  have hheader := parseHeader_appendHeader (sdHeader p.sessionId
    (UInt32.ofNat (36 + (p.options.flatMap appendSdExtraOption).length +
      if p.extraTrailingInLength then p.extraTrailingPayload.length else 0))
    (p.methodIdOverride.getD kSdMethodId))
    (sdLayout p.sdFlags 0 [appendSdType2Entry p.entry] (p.options.flatMap appendSdExtraOption) ++
      p.extraTrailingPayload)
  rw [← hlayout] at hheader
  refine ⟨⟨_, hheader, ?_⟩, ⟨decodeSdEntry (appendSdType2Entry p.entry), ?_, ?_⟩, ?_⟩
  · rw [sdHeader, UInt32.toNat_ofNat', hlen]
    congr 1
    simp only [uncounted]
    split <;> omega
  · exact hentries
  · exact decodeSdEntry_subscribe p httl
  · rw [← decodedOptions_options]
    exact hoptions

/-- A Subscribe over UDP and TCP with a Configuration option and two trailing bytes. -/
theorem subscribe_roundTrip_two_endpoints :
    let p : SubscribeEventgroupParams :=
      { target := { counter := 0x2F, entryReserved := some 0x1ABC }
        testerEndpoint := ⟨0x010010AC, 30490, 0x11⟩
        secondEndpoint := some ⟨0x010010AC, 30491, 0x06⟩
        extraOptions := [⟨kConfiguration, encodeSdConfigOptionBody [], 0x80⟩]
        extraTrailingPayload := [0xDE, 0xAD] }
    let d := parseSdInto (.bytes ((buildSubscribeEventgroup p).drop 16))
    d.sdOptions = [decodedEndpoint p.testerEndpoint 0 0, decodedEndpoint ⟨0x010010AC, 30491, 0x06⟩ 0 0,
      { length := 2, type := kConfiguration, reserved1 := 0x80 }] := by
  intro p d
  have hp : p.Canonical := ⟨rfl, rfl, rfl, rfl, rfl⟩
  exact (subscribe_roundTrip p hp (by decide) (by decide) (by decide)).2.2

/-- The Reserved byte of a Load Balancing option is not read: the decoder leaves the tail of every
type but the endpoint types and Configuration at its default. -/
theorem subscribe_reserved_not_read :
    let option : SdExtraOption := { type := 0x02, body := [0, 1, 0, 2], reserved := 0x80 }
    let p : SubscribeEventgroupParams := { extraOptions := [option] }
    let d := parseSdInto (.bytes ((buildSubscribeEventgroup p).drop 16))
    p.Canonical ∧ (d.sdOptions.getD 1 {}).reserved1 ≠ option.reserved := by
  intro option p d
  exact ⟨⟨rfl, rfl, rfl, rfl, rfl⟩, by decide +kernel⟩

/-! ## Offers -/

/-- An offered service as its entry reads back, with the number of options it references. -/
structure OfferRead (numOpt1 : UInt8) (t : OfferServiceTarget) (e : SdEntry) : Prop where
  type : e.type = kOfferService
  serviceId : e.serviceId = t.serviceId
  instanceId : e.instanceId = t.instanceId
  majorVersion : e.majorVersion = t.majorVersion
  ttl : e.ttl = t.ttl
  minorVersion : e.minorVersion = t.minorVersion
  numOpt1 : e.numOpt1 = numOpt1
  indexFirst : e.indexFirst = 0

theorem decodeSdEntry_offer (t : OfferServiceTarget) (run : UInt8) (httl : t.ttl.toNat ≤ 0xFFFFFF) :
    OfferRead (UInt8.ofNat (run.toNat >>> 4 &&& 0x0F)) t (decodeSdEntry (t.entry run)) := by
  have hentry : t.entry run = entryLayout kOfferService 0 0 run t.serviceId t.instanceId
      t.majorVersion t.ttl (putBe32 t.minorVersion) := rfl
  obtain ⟨htype, hindex, -, hnum, -, hservice, hinstance, hmajor, httl'⟩ := decode_entryLayout
    kOfferService 0 0 run t.serviceId t.instanceId t.majorVersion t.ttl (putBe32 t.minorVersion) httl
  refine ⟨htype, hservice, hinstance, hmajor, httl', ?_, hnum, hindex⟩
  have hminor : readBe (t.entry run) 12 4 = t.minorVersion.toNat := by
    rw [hentry, show 12 = 12 + 0 from rfl, readBe_entryLayout_tail,
      ← List.append_nil (putBe32 t.minorVersion), readBe_putBe32]
  simp only [decodeSdEntry]
  rw [field_zero_mod (show 0xFFFFFFFF = 2 ^ 32 - 1 from rfl), hminor,
    Nat.mod_eq_of_lt t.minorVersion.toNat_lt, UInt32.ofNat_toNat]

theorem length_entry (t : OfferServiceTarget) (run : UInt8) : (t.entry run).length = 16 :=
  length_appendSdType1Entry _ _ _ _ _ _ _ _

/-- Several offers read back as the same list, with their shared endpoint. -/
theorem multiOffer_roundTrip (p : MultiOfferServiceParams) (hcount : p.entries.length ≤ 8)
    (httl : ∀ e ∈ p.entries, e.ttl.toNat ≤ 0xFFFFFF) :
    let d := parseSdInto (.bytes ((buildMultiOfferService p).drop 16))
    List.Forall₂ (OfferRead 1) p.entries d.sdEntries ∧
      d.sdOptions = [decodedEndpoint p.endpoint 0 0] := by
  intro d
  have hbodies : ∀ o ∈ [p.endpoint.option], o.body.length < 65535 := by
    intro o ho
    rw [List.mem_singleton.1 ho, Ipv4Endpoint.option, length_sdIpv4OptionBody]
    decide
  have hentries : ∀ e ∈ p.entries.map (fun e => e.entry kEntryOptionRun1), e.length = 16 := by
    intro e he
    obtain ⟨t, -, rfl⟩ := List.mem_map.1 he
    exact length_entry t _
  obtain ⟨hread, hoptions, -⟩ := parseSdInto_message (sdHeader p.sessionId
    (sdSomeIpLengthField (UInt32.ofNat (16 * p.entries.length)) 12) kSdMethodId) p.sdFlags
    p.sdReserved [] hentries (by rwa [List.length_map]) hbodies (by simp)
  rw [List.append_nil, ← buildMultiOfferService_layout] at hread hoptions
  refine ⟨?_, ?_⟩
  · simp only [d, hread, List.map_map]
    rw [List.forall₂_map_right_iff, List.forall₂_same]
    intro t ht
    exact decodeSdEntry_offer t kEntryOptionRun1 (httl t ht)
  · simp only [d, hoptions]
    rw [decodedOptions_cons]
    exact congrArg (· :: []) (decodedOption_endpoint false p.endpoint 0 0)

/-! ## Configuration items -/

/-- The text of an item. -/
def itemText (kv : List UInt8 × List UInt8) : List UInt8 := kv.1 ++ kEquals :: kv.2

/-- An item of at most 64 bytes as the decoder captures it: whole. -/
def capturedItem (kv : List UInt8 × List UInt8) : SdConfigItem :=
  { len := UInt8.ofNat (itemText kv).length
    captured := UInt8.ofNat (itemText kv).length
    bytes := itemText kv }

theorem length_itemText (kv : List UInt8 × List UInt8) :
    (itemText kv).length = kv.1.length + 1 + kv.2.length := by
  simp only [itemText, List.length_append, List.length_cons]
  omega

theorem encodeSdConfigOptionBody_cons (kv : List UInt8 × List UInt8)
    (items : List (List UInt8 × List UInt8)) :
    encodeSdConfigOptionBody (kv :: items) =
      UInt8.ofNat (itemText kv).length :: (itemText kv ++ encodeSdConfigOptionBody items) := by
  simp [encodeSdConfigOptionBody, itemText, Nat.add_assoc, Nat.add_comm 1]

/-- The configuration string reads back item by item. -/
theorem parseConfigItems_encode {items : List (List UInt8 × List UInt8)} {left : Nat}
    (hitem : ∀ kv ∈ items, (itemText kv).length ≤ 64) (hleft : items.length ≤ left) :
    parseConfigItems left (encodeSdConfigOptionBody items) = items.map capturedItem := by
  induction items generalizing left with
  | nil => cases left <;> rfl
  | cons kv items ih =>
    obtain ⟨left, rfl⟩ : ∃ n, left = n + 1 := ⟨left - 1, by rw [List.length_cons] at hleft; omega⟩
    have hlen : (itemText kv).length ≤ 64 := hitem kv List.mem_cons_self
    have hpos : 0 < (itemText kv).length := by
      rw [length_itemText]
      omega
    have htoNat : (UInt8.ofNat (itemText kv).length).toNat = (itemText kv).length :=
      UInt8.toNat_ofNat_of_lt' (by simp only [UInt8.size]; omega)
    have hne : UInt8.ofNat (itemText kv).length ≠ 0 := by
      intro hzero
      rw [hzero] at htoNat
      exact absurd htoNat (by simp; omega)
    have hcaptured : (if (itemText kv).length < kMaxSdConfigItemLen then (itemText kv).length
        else kMaxSdConfigItemLen) = (itemText kv).length := by
      change (if (itemText kv).length < 64 then (itemText kv).length else 64) = _
      split <;> omega
    have hfit : ¬ (itemText kv).length > (itemText kv ++ encodeSdConfigOptionBody items).length := by
      rw [List.length_append]
      omega
    rw [encodeSdConfigOptionBody_cons, parseConfigItems, if_neg hne]
    simp only [htoNat, hcaptured, if_neg hfit, List.take_left, List.drop_left]
    rw [ih (fun kv hkv => hitem kv (List.mem_cons_of_mem _ hkv))
      (by rw [List.length_cons] at hleft; omega), List.map_cons]
    rfl

/-- **A key without `'='` matches an item exactly when it is the item's key**, also when one is the
start of the other and whatever the value holds. -/
theorem sdConfigItemMatches_itemText {kv : List UInt8 × List UInt8} {k : List UInt8}
    (hkey : kEquals ∉ kv.1) (hk : kEquals ∉ k) :
    sdConfigItemMatches (itemText kv) k = (kv.1 == k) := by
  rw [Bool.eq_iff_iff]
  simp only [sdConfigItemMatches, Bool.or_eq_true, Bool.and_eq_true, decide_eq_true_eq, beq_iff_eq]
  constructor
  · rintro (heq | ⟨⟨hlt, htake⟩, hat⟩)
    · exact absurd (by rw [← heq]; simp [itemText]) hk
    · -- Both `'='` are the first of the item, so they stand at the same place.
      rcases lt_trichotomy k.length kv.1.length with hlt' | heq | hgt
      · have hmem : (itemText kv).getD k.length 0 ∈ kv.1 := by
          rw [itemText, List.getD_append _ _ _ _ hlt', List.getD_eq_getElem _ _ hlt']
          exact List.getElem_mem hlt'
        rw [hat] at hmem
        exact absurd hmem hkey
      · rw [← htake, heq, itemText, List.take_left]
      · have hmem : kEquals ∈ (itemText kv).take k.length := by
          rw [itemText, List.take_append, List.mem_append]
          right
          obtain ⟨n, hn⟩ : ∃ n, k.length - kv.1.length = n + 1 :=
            ⟨k.length - kv.1.length - 1, by omega⟩
          rw [hn, List.take_succ_cons]
          exact List.mem_cons_self
        rw [htake] at hmem
        exact absurd hmem hk
  · rintro rfl
    refine .inr ⟨⟨?_, ?_⟩, ?_⟩
    · rw [length_itemText]
      omega
    · rw [itemText, List.take_left]
    · rw [itemText, List.getD_append_right _ _ _ _ le_rfl, Nat.sub_self]
      rfl

private theorem foldl_count {α : Type} (p : α → Bool) (l : List α) (n : Nat) :
    l.foldl (fun n a => if p a then n + 1 else n) (UInt8.ofNat n) =
      UInt8.ofNat (n + (l.filter p).length) := by
  induction l generalizing n with
  | nil => rfl
  | cons a l ih =>
    rw [List.foldl_cons, List.filter_cons]
    by_cases ha : p a = true
    · have hsucc : UInt8.ofNat n + 1 = UInt8.ofNat (n + 1) := (UInt8.ofNat_add n 1).symm
      rw [if_pos ha, if_pos ha, hsucc, ih, List.length_cons]
      congr 1
      omega
    · rw [if_neg ha, if_neg ha, ih]

theorem sdConfigCountKey_eq (d : SdDecoded) (k : List UInt8) (hcount : d.sdConfigItems.length ≤ 8) :
    (d.sdConfigCountKey k).toNat =
      (d.sdConfigItems.filter fun item => sdConfigItemMatches item.bytes k).length := by
  have hle := List.length_filter_le (fun item => sdConfigItemMatches item.bytes k) d.sdConfigItems
  have hfold := foldl_count (fun item => sdConfigItemMatches item.bytes k) d.sdConfigItems 0
  rw [Nat.zero_add] at hfold
  refine (congrArg UInt8.toNat hfold).trans ?_
  exact UInt8.toNat_ofNat_of_lt' (by simp only [UInt8.size]; omega)

theorem length_encodeSdConfigOptionBody {items : List (List UInt8 × List UInt8)}
    (hitem : ∀ kv ∈ items, (itemText kv).length ≤ 64) :
    (encodeSdConfigOptionBody items).length ≤ items.length * 65 + 1 := by
  induction items with
  | nil => decide
  | cons kv items ih =>
    have hkv := hitem kv List.mem_cons_self
    have hrest := ih fun kv hkv => hitem kv (List.mem_cons_of_mem _ hkv)
    rw [encodeSdConfigOptionBody_cons, List.length_cons, List.length_append, List.length_cons]
    omega

/-- The decoder captures the items of the offer's Configuration option, in order and whole. -/
theorem sdConfigItems_offer (t : OfferServiceWithEndpointTarget)
    {items : List (List UInt8 × List UInt8)} (hcount : items.length ≤ 8)
    (hitem : ∀ kv ∈ items, (itemText kv).length ≤ 64) :
    (parseSdInto (.bytes
      ((buildOfferServiceWithEndpointAndConfigOption t items).drop 16))).sdConfigItems =
        items.map capturedItem := by
  let config : SdExtraOption := ⟨kConfiguration, encodeSdConfigOptionBody items, 0⟩
  have hendpoint : t.endpoint.option.body.length < 65535 := by
    rw [Ipv4Endpoint.option, length_sdIpv4OptionBody]
    decide
  have hconfig : config.body.length < 65535 := by
    have := length_encodeSdConfigOptionBody hitem
    simp only [config]
    omega
  have hbodies : ∀ o ∈ [t.endpoint.option, config], o.body.length < 65535 := by
    intro o ho
    simp only [List.mem_cons, List.not_mem_nil, or_false] at ho
    rcases ho with rfl | rfl
    · exact hendpoint
    · exact hconfig
  have hentry : ∀ e ∈ [t.service.entry kEntryTwoOptionsRun1], e.length = 16 := by
    simpa using length_entry t.service kEntryTwoOptionsRun1
  obtain ⟨-, -, hitems⟩ := parseSdInto_message (sdHeader t.service.sessionId
    (sdSomeIpLengthField 16
      (UInt32.ofNat ([t.endpoint.option, config].flatMap appendSdExtraOption).length)) kSdMethodId)
    t.service.sdFlags t.service.sdReserved [] hentry (by simp) hbodies (by simp)
  rw [List.append_nil, ← buildOfferServiceWithEndpointAndConfigOption_layout] at hitems
  -- The endpoint option comes first and leaves the configuration string to the second.
  obtain ⟨hoptions₁, hseen₁, -⟩ := store_appendSdExtraOption hendpoint {} (by decide)
  obtain ⟨-, -, hitems₂⟩ := store_appendSdExtraOption hconfig
    (OptionWalk.store {} (appendSdExtraOption t.endpoint.option)) (by rw [hoptions₁]; simp)
  have hnot : (t.endpoint.option.type == kConfiguration) = false := rfl
  rw [hseen₁, hnot] at hitems₂
  rw [hitems]
  refine Eq.trans hitems₂ ?_
  rw [← parseConfigItems_encode hitem hcount]
  rfl

/-- The configuration items of an offer are found by their keys. -/
theorem configuration_roundTrip (t : OfferServiceWithEndpointTarget)
    {items : List (List UInt8 × List UInt8)} (hcount : items.length ≤ 8)
    (hkey : ∀ kv ∈ items, kEquals ∉ kv.1) (hsize : ∀ kv ∈ items, 1 + kv.1.length + kv.2.length ≤ 64) :
    let d := parseSdInto (.bytes ((buildOfferServiceWithEndpointAndConfigOption t items).drop 16))
    d.sdConfigItems.length = items.length ∧
      ∀ k, kEquals ∉ k →
        (d.sdConfigCountKey k).toNat = (items.filter fun kv => kv.1 == k).length ∧
        d.sdConfigValueOf k = ((items.find? fun kv => kv.1 == k).map Prod.snd).getD [] := by
  intro d
  have hitem : ∀ kv ∈ items, (itemText kv).length ≤ 64 := by
    intro kv hkv
    have := hsize kv hkv
    rw [length_itemText]
    omega
  have hread : d.sdConfigItems = items.map capturedItem := sdConfigItems_offer t hcount hitem
  have hmatch : ∀ k, kEquals ∉ k → ∀ kv ∈ items,
      sdConfigItemMatches (capturedItem kv).bytes k = (kv.1 == k) :=
    fun k hk kv hkv => sdConfigItemMatches_itemText (hkey kv hkv) hk
  refine ⟨by rw [hread, List.length_map], fun k hk => ⟨?_, ?_⟩⟩
  · rw [sdConfigCountKey_eq d k (by rw [hread, List.length_map]; exact hcount), hread,
      List.filter_map, List.length_map]
    congr 1
    exact List.filter_congr fun kv hkv => hmatch k hk kv hkv
  · have hfind : d.sdConfigItemFor k = (items.find? fun kv => kv.1 == k).map capturedItem := by
      rw [SdDecoded.sdConfigItemFor, hread, List.find?_map]
      congr 1
      exact List.find?_congr fun kv hkv => hmatch k hk kv hkv
    rw [SdDecoded.sdConfigValueOf, hfind]
    cases hfirst : items.find? fun kv => kv.1 == k with
    | none => rfl
    | some kv =>
      have hk' : kv.1 = k := by simpa using List.find?_some hfirst
      have hlong : ¬ (itemText kv).length ≤ k.length := by
        rw [length_itemText, hk']
        omega
      simp only [Option.map_some, capturedItem, if_neg hlong, Option.getD_some]
      rw [itemText, hk', ← List.drop_drop, List.drop_left]
      rfl

/-- **Offers read back.** Up to eight offers behind one endpoint come back in order with it; and the
items of an offer's Configuration option come back in their number, counted and looked up by every
key that holds no `'='`. -/
theorem offer_roundTrip :
    (∀ p : MultiOfferServiceParams, p.entries.length ≤ 8 →
      (∀ e ∈ p.entries, e.ttl.toNat ≤ 0xFFFFFF) → p.sdReserved.toNat ≤ 0xFFFFFF →
      let d := parseSdInto (.bytes ((buildMultiOfferService p).drop 16))
      List.Forall₂ (OfferRead 1) p.entries d.sdEntries ∧
        d.sdOptions = [decodedEndpoint p.endpoint 0 0]) ∧
    (∀ (t : OfferServiceWithEndpointTarget) (items : List (List UInt8 × List UInt8)),
      items.length ≤ 8 → (∀ kv ∈ items, kEquals ∉ kv.1) →
      (∀ kv ∈ items, 1 + kv.1.length + kv.2.length ≤ 64) →
      let d := parseSdInto (.bytes ((buildOfferServiceWithEndpointAndConfigOption t items).drop 16))
      d.sdConfigItems.length = items.length ∧
        ∀ k, kEquals ∉ k →
          (d.sdConfigCountKey k).toNat = (items.filter fun kv => kv.1 == k).length ∧
          d.sdConfigValueOf k = ((items.find? fun kv => kv.1 == k).map Prod.snd).getD []) :=
  ⟨fun p hcount httl _ => multiOffer_roundTrip p hcount httl,
    fun t _ hcount hkey hsize => configuration_roundTrip t hcount hkey hsize⟩

/-- A key that is the start of another, an empty value and a value with `'='` in it. -/
theorem offer_roundTrip_similar_keys :
    -- `a=`, `ab=c` and `a=b=c`
    let items : List (List UInt8 × List UInt8) :=
      [([0x61], []), ([0x61, 0x62], [0x63]), ([0x61], [0x62, 0x3D, 0x63])]
    let d := parseSdInto (.bytes ((buildOfferServiceWithEndpointAndConfigOption {} items).drop 16))
    let several : MultiOfferServiceParams := { entries := [{}, { serviceId := 0x1234, ttl := 0 }] }
    let d' := parseSdInto (.bytes ((buildMultiOfferService several).drop 16))
    d.sdConfigItems.length = 3 ∧ (d.sdConfigCountKey [0x61]).toNat = 2 ∧
      d.sdConfigValueOf [0x61, 0x62] = [0x63] ∧
      List.Forall₂ (OfferRead 1) several.entries d'.sdEntries := by
  intro items d several d'
  obtain ⟨hmulti, hconfig⟩ := offer_roundTrip
  obtain ⟨hcount, hkeys⟩ := hconfig {} items (by decide) (by decide) (by decide)
  refine ⟨hcount, (hkeys [0x61] (by decide)).1, (hkeys [0x61, 0x62] (by decide)).2, ?_⟩
  exact (hmulti several (by decide) (by decide) (by decide)).1

/-- Looked up under `a=b`, the item `a=b=c` is found, though its key is `a`. -/
theorem configuration_lookup_past_equals :
    let items : List (List UInt8 × List UInt8) := [([0x61], [0x62, 0x3D, 0x63])]
    let k : List UInt8 := [0x61, 0x3D, 0x62]
    let d := parseSdInto (.bytes ((buildOfferServiceWithEndpointAndConfigOption {} items).drop 16))
    (∀ kv ∈ items, kEquals ∉ kv.1) ∧
      (d.sdConfigCountKey k).toNat ≠ (items.filter fun kv => kv.1 == k).length := by
  intro items k d
  exact ⟨by decide, by decide +kernel⟩

end Tc8Harness.Stimulus
