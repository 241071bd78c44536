import Tc8Harness.Lib.StreamFraming
import Tc8Harness.Someip.Wire

/-!
# The SOME/IP-SD payload decoder

`include/tc8/someip/sd_decode.h` with the field layout of `someip_sd_wire.def`: entries of 16 bytes,
then options of variable length, each array behind a length field of its own. The decoder fills a
fresh `SdDecoded` from whatever the payload covers. An array with a count beside it is a list here;
a captured configuration item keeps its captured bytes.

`optionLoop_eq` separates the walk over the option array, which is a stream parser, from what the
loop's body stores of each option. `parseSdInto_layout` is the decoder's one spec lemma: what it makes
of a payload whose two length fields are right, whatever trails.
-/

namespace Tc8Harness.Someip

open BigEndian Wire StreamFraming
open SomeipTp (Buffer)

/-! ## Wire values -/

def kConfiguration : UInt8 := 0x01
def kIpv4Endpoint : UInt8 := 0x04
def kIpv4Multicast : UInt8 := 0x14
def kIpv4SdEndpoint : UInt8 := 0x24

def kOfferService : UInt8 := 0x01
def kSubscribeEventgroup : UInt8 := 0x06

def kReboot : UInt8 := 0x80
def kUnicast : UInt8 := 0x40
def kRebootUnicast : UInt8 := kReboot ||| kUnicast

/-! ## Decoded structures -/

/-- One 16-byte entry, with both readings of its last four bytes. -/
structure SdEntry where
  type : UInt8 := 0
  indexFirst : UInt8 := 0
  indexSecond : UInt8 := 0
  numOpt1 : UInt8 := 0
  numOpt2 : UInt8 := 0
  serviceId : UInt16 := 0
  instanceId : UInt16 := 0
  majorVersion : UInt8 := 0
  ttl : UInt32 := 0
  minorVersion : UInt32 := 0
  entryReserved : UInt16 := 0
  counter : UInt8 := 0
  eventgroupId : UInt16 := 0
  deriving DecidableEq, Repr

structure SdOption where
  length : UInt16 := 0
  type : UInt8 := 0
  reserved1 : UInt8 := 0
  ipv4 : UInt32 := 0
  reserved2 : UInt8 := 0
  l4Proto : UInt8 := 0
  port : UInt16 := 0
  deriving DecidableEq, Repr

def kMaxSdConfigItemLen : Nat := 64

structure SdConfigItem where
  len : UInt8 := 0
  captured : UInt8 := 0
  bytes : List UInt8 := []
  deriving DecidableEq, Repr

def kMaxSdEntries : Nat := 8
def kSdEntrySizeBytes : Nat := 16
def kMaxSdOptions : Nat := 8
def kMaxSdConfigItems : Nat := 8

structure SdDecoded where
  sdFlags : UInt8 := 0
  sdReserved : UInt32 := 0
  sdEntriesLen : UInt32 := 0
  sdOptionsLen : UInt32 := 0
  sdEntries : List SdEntry := []
  sdOptions : List SdOption := []
  sdConfigItems : List SdConfigItem := []
  sdIpv4EndpointCount : UInt8 := 0
  sdIpv4MulticastCount : UInt8 := 0
  sdEntryCountWire : UInt16 := 0
  sdIpv4EndpointCountWire : UInt16 := 0
  deriving DecidableEq, Repr

/-! ## Entries -/

/-- A row of the layout table: `(big_endian(base[off .. off + size)) >> shift) & mask`. -/
def field (src : List UInt8) (off size shift mask : Nat) : Nat :=
  (readBe src off size >>> shift) &&& mask

def decodeSdEntry (src : List UInt8) : SdEntry :=
  { type := UInt8.ofNat (field src 0 1 0 0xFF)
    indexFirst := UInt8.ofNat (field src 1 1 0 0xFF)
    indexSecond := UInt8.ofNat (field src 2 1 0 0xFF)
    numOpt1 := UInt8.ofNat (field src 3 1 4 0x0F)
    numOpt2 := UInt8.ofNat (field src 3 1 0 0x0F)
    serviceId := UInt16.ofNat (field src 4 2 0 0xFFFF)
    instanceId := UInt16.ofNat (field src 6 2 0 0xFFFF)
    majorVersion := UInt8.ofNat (field src 8 1 0 0xFF)
    ttl := UInt32.ofNat (field src 9 3 0 0xFFFFFF)
    minorVersion := UInt32.ofNat (field src 12 4 0 0xFFFFFFFF)
    entryReserved := UInt16.ofNat (field src 12 2 4 0x0FFF)
    counter := UInt8.ofNat (field src 12 2 0 0x0F)
    eventgroupId := UInt16.ofNat (field src 14 2 0 0xFFFF) }

/-- The entries from index `i` on, at most `left` of them. -/
def parseEntries (payload : List UInt8) (declared : Nat) : Nat → Nat → List SdEntry
  | 0, _ => []
  | left + 1, i =>
    let offset := 8 + i * kSdEntrySizeBytes
    if offset + kSdEntrySizeBytes > payload.length then []
    else if declared < (i + 1) * kSdEntrySizeBytes then []
    else decodeSdEntry (payload.drop offset) :: parseEntries payload declared left (i + 1)

/-! ## Options -/

/-- The length-prefixed items of a configuration string, at most `left` of them. -/
def parseConfigItems : Nat → List UInt8 → List SdConfigItem
  | 0, _ => []
  | _ + 1, [] => []
  | left + 1, itemLen :: cs =>
    if itemLen = 0 then []
    else if itemLen.toNat > cs.length then []
    else
      let captured := if itemLen.toNat < kMaxSdConfigItemLen then itemLen.toNat else kMaxSdConfigItemLen
      { len := itemLen, captured := UInt8.ofNat captured, bytes := cs.take captured } ::
        parseConfigItems left (cs.drop itemLen.toNat)

/-- What the option loop has stored so far. -/
structure OptionWalk where
  options : List SdOption := []
  configItems : List SdConfigItem := []
  configSeen : Bool := false
  endpointCount : UInt8 := 0
  multicastCount : UInt8 := 0
  wireEndpoints : UInt16 := 0
  deriving DecidableEq, Repr

/-- The tail of an endpoint-bearing option; other types leave theirs at the default. -/
def decodeEndpoint (dst : SdOption) (o : List UInt8) : SdOption :=
  { dst with
    reserved1 := UInt8.ofNat (field o 3 1 0 0xFF)
    ipv4 := copy32 o 4
    reserved2 := UInt8.ofNat (field o 8 1 0 0xFF)
    l4Proto := UInt8.ofNat (field o 9 1 0 0xFF)
    port := UInt16.ofNat (field o 10 2 0 0xFFFF) }

/-- The option's configuration string is read: the first Configuration option's, if it has a body. -/
def OptionWalk.takesConfig (w : OptionWalk) (o : List UInt8) : Bool :=
  o.getD 2 0 == kConfiguration && !w.configSeen && decide (readBe o 0 2 ≥ 1)

/-- The option as it is stored; `o` holds its `3 + opt_len` bytes. -/
def storedOption (takesConfig : Bool) (o : List UInt8) : SdOption :=
  let optLen := readBe o 0 2
  let optType := o.getD 2 0
  let dst : SdOption := { length := UInt16.ofNat optLen, type := optType }
  let dst :=
    if (optType = kIpv4Endpoint ∨ optType = kIpv4Multicast ∨ optType = kIpv4SdEndpoint) ∧
        3 + optLen ≥ 12 then decodeEndpoint dst o
    else dst
  if takesConfig then { dst with reserved1 := o.getD 3 0 } else dst

/-- The loop's body on one whole option. Past the cap only the wire total goes on. -/
def OptionWalk.store (w : OptionWalk) (o : List UInt8) : OptionWalk :=
  let optType := o.getD 2 0
  let wireEndpoints :=
    if optType = kIpv4Endpoint then w.wireEndpoints + 1 else w.wireEndpoints
  if w.options.length ≥ kMaxSdOptions then { w with wireEndpoints := wireEndpoints }
  else
    let takesConfig := w.takesConfig o
    { options := w.options ++ [storedOption takesConfig o]
      configItems :=
        if takesConfig then parseConfigItems kMaxSdConfigItems (o.drop 4) else w.configItems
      configSeen := w.configSeen || takesConfig
      endpointCount :=
        if optType = kIpv4Endpoint then w.endpointCount + 1 else w.endpointCount
      multicastCount :=
        if optType = kIpv4Multicast then w.multicastCount + 1 else w.multicastCount
      wireEndpoints := wireEndpoints }

/-- The loop over the option array. `window` is what is left of it, up to its declared length and up
to the end of the payload: the source tests both bounds at each step. An option takes three bytes at
least, so one step a byte is enough. -/
def optionLoop : Nat → List UInt8 → OptionWalk → OptionWalk
  | 0, _, w => w
  | steps + 1, window, w =>
    if window.length < 3 then w
    else
      let optTotal := 3 + readBe window 0 2
      if optTotal > window.length then w
      else optionLoop steps (window.drop optTotal) (w.store (window.take optTotal))

/-! ## The payload -/

/-- `parseSdInto`, into a context that is reset first. -/
def parseSdInto (payload : Buffer) : SdDecoded :=
  match payload with
  | .null _ => {}
  | .bytes p =>
    if p.length < 4 then {}
    else
      let d : SdDecoded :=
        { sdFlags := UInt8.ofNat (field p 0 1 0 0xFF)
          sdReserved := UInt32.ofNat (field p 1 3 0 0xFFFFFF) }
      if p.length < 8 then d
      else
        let declaredEntries := field p 4 4 0 0xFFFFFFFF
        let d :=
          { d with
            sdEntriesLen := UInt32.ofNat declaredEntries
            sdEntries := parseEntries p declaredEntries kMaxSdEntries 0
            sdEntryCountWire :=
              UInt16.ofNat (min declaredEntries (p.length - 8) / kSdEntrySizeBytes) }
        let optionsLenOffset := 8 + declaredEntries
        let declaredOptions :=
          if optionsLenOffset + 4 ≤ p.length then readBe p optionsLenOffset 4 else 0
        let d := { d with sdOptionsLen := UInt32.ofNat declaredOptions }
        let optionsStart := optionsLenOffset + 4
        if optionsStart > p.length then d
        else if declaredOptions = 0 then d
        else
          let window := (p.drop optionsStart).take declaredOptions
          let w := optionLoop window.length window {}
          { d with
            sdOptions := w.options
            sdConfigItems := w.configItems
            sdIpv4EndpointCount := w.endpointCount
            sdIpv4MulticastCount := w.multicastCount
            sdIpv4EndpointCountWire := w.wireEndpoints }

/-! ## Configuration items by key -/

/-- `'='`. -/
def kEquals : UInt8 := 0x3D

/-- The item is the key alone, or the key and a value behind `'='`. -/
def sdConfigItemMatches (item key : List UInt8) : Bool :=
  item == key ||
    (decide (item.length > key.length) && item.take key.length == key &&
      item.getD key.length 0 == kEquals)

def SdDecoded.sdConfigItemFor (d : SdDecoded) (key : List UInt8) : Option SdConfigItem :=
  d.sdConfigItems.find? fun item => sdConfigItemMatches item.bytes key

def SdDecoded.sdConfigValueOf (d : SdDecoded) (key : List UInt8) : List UInt8 :=
  match d.sdConfigItemFor key with
  | none => []
  | some item =>
    if item.bytes.length ≤ key.length then [] else item.bytes.drop (key.length + 1)

def SdDecoded.sdConfigCountKey (d : SdDecoded) (key : List UInt8) : UInt8 :=
  d.sdConfigItems.foldl (fun n item => if sdConfigItemMatches item.bytes key then n + 1 else n) 0

/-! ## The option array as a stream -/

/-- One whole option at the front of the array. -/
def optionParser : Parser UInt8 (List UInt8) where
  parse window :=
    if window.length < 3 then none
    else if 3 + readBe window 0 2 > window.length then none
    else some (window.take (3 + readBe window 0 2), 3 + readBe window 0 2)
  pos := by
    intro data m n h
    simp only [Option.ite_none_left_eq_some, Option.some.injEq, Prod.mk.injEq] at h
    omega
  le := by
    intro data m n h
    simp only [Option.ite_none_left_eq_some, Option.some.injEq, Prod.mk.injEq] at h
    omega
  stable := by
    intro data m n more h
    simp only [Option.ite_none_left_eq_some, Option.some.injEq, Prod.mk.injEq] at h
    obtain ⟨hshort, hfit, rfl, rfl⟩ := h
    have hlen : readBe (data ++ more) 0 2 = readBe data 0 2 := readBe_append_left (by omega)
    have hlong : data.length ≤ (data ++ more).length := by
      rw [List.length_append]
      omega
    rw [hlen, if_neg (by omega), if_neg (by omega), List.take_append_of_le_length (by omega)]

/-- The loop stores the options the parser finds, one after the other. -/
theorem optionLoop_eq (steps : Nat) (window : List UInt8) (w : OptionWalk) :
    optionLoop steps window w = (optionParser.split steps window).1.foldl OptionWalk.store w := by
  induction steps generalizing window w with
  | zero => rfl
  | succ steps ih =>
    unfold optionLoop Parser.split
    by_cases hshort : window.length < 3
    · simp [optionParser, hshort]
    · by_cases hfit : 3 + readBe window 0 2 > window.length
      · simp [optionParser, hshort, hfit]
      · have hparse : optionParser.parse window =
            some (window.take (3 + readBe window 0 2), 3 + readBe window 0 2) := by
          simp only [optionParser, if_neg hshort, if_neg hfit]
        simp only [hparse, if_neg hshort, if_neg hfit, ih, List.foldl_cons]

/-! ## The decoder on a well-formed layout -/

/-- An entry is decoded from its own 16 bytes. -/
theorem decodeSdEntry_append {e : List UInt8} (he : e.length = 16) (rest : List UInt8) :
    decodeSdEntry (e ++ rest) = decodeSdEntry e := by
  have hfield : ∀ off size shift mask, off + size ≤ 16 →
      field (e ++ rest) off size shift mask = field e off size shift mask := by
    intro off size shift mask h
    rw [field, field, readBe_append_left (by omega)]
  unfold decodeSdEntry
  simp (disch := decide) only [hfield]

private theorem drop_flatten_of_length {entries : List (List UInt8)}
    (h : ∀ e ∈ entries, e.length = 16) (i : Nat) :
    entries.flatten.drop (i * 16) = (entries.drop i).flatten := by
  induction entries generalizing i with
  | nil => simp
  | cons e entries ih =>
    cases i with
    | zero => simp
    | succ i =>
      have he : e.length = 16 := h e List.mem_cons_self
      have hstep : (i + 1) * 16 = e.length + i * 16 := by omega
      rw [List.flatten_cons, hstep, ← List.drop_drop, List.drop_left, List.drop_succ_cons]
      exact ih (fun e he => h e (List.mem_cons_of_mem _ he)) i

theorem length_flatten_of_length {entries : List (List UInt8)}
    (h : ∀ e ∈ entries, e.length = 16) : entries.flatten.length = entries.length * 16 := by
  induction entries with
  | nil => rfl
  | cons e entries ih =>
    rw [List.flatten_cons, List.length_append, h e List.mem_cons_self,
      ih fun e he => h e (List.mem_cons_of_mem _ he), List.length_cons]
    omega

private theorem parseEntries_succ (payload : List UInt8) (declared left i : Nat) :
    parseEntries payload declared (left + 1) i =
      if 8 + i * 16 + 16 > payload.length then []
      else if declared < (i + 1) * 16 then []
      else decodeSdEntry (payload.drop (8 + i * 16)) :: parseEntries payload declared left (i + 1) :=
  rfl

private theorem parseEntries_eq {pre rest : List UInt8} {entries : List (List UInt8)}
    (hpre : pre.length = 8) (h : ∀ e ∈ entries, e.length = 16) (left i : Nat) :
    parseEntries (pre ++ (entries.flatten ++ rest)) (entries.length * 16) left i =
      ((entries.drop i).take left).map decodeSdEntry := by
  have hflat := length_flatten_of_length h
  induction left generalizing i with
  | zero => simp [parseEntries]
  | succ left ih =>
    have hlen : (pre ++ (entries.flatten ++ rest)).length = 8 + (entries.length * 16 + rest.length) := by
      rw [List.length_append, List.length_append, hpre, hflat]
    rw [parseEntries_succ, hlen]
    by_cases hi : i < entries.length
    · rw [if_neg (by omega), if_neg (by omega)]
      have hdrop : (pre ++ (entries.flatten ++ rest)).drop (8 + i * 16) =
          entries[i] ++ ((entries.drop (i + 1)).flatten ++ rest) := by
        rw [← hpre, ← List.drop_drop, List.drop_left,
          List.drop_append_of_le_length (by omega), drop_flatten_of_length h,
          List.drop_eq_getElem_cons hi, List.flatten_cons, List.append_assoc]
      rw [hdrop, decodeSdEntry_append (h _ (List.getElem_mem hi)), ih (i + 1),
        List.drop_eq_getElem_cons hi, List.take_succ_cons, List.map_cons]
    · have hnil : entries.drop i = [] := List.drop_eq_nil_of_le (by omega)
      rw [hnil]
      split
      · rfl
      · rw [if_pos (by omega)]
        rfl

/-- An SD payload: flags and reserved bits, the entries behind their length, the options behind
theirs. -/
def sdLayout (flags : UInt8) (reserved : UInt32) (entries : List (List UInt8))
    (options : List UInt8) : List UInt8 :=
  [flags] ++ (putBe24 reserved ++ (putBe32 (UInt32.ofNat (entries.length * 16)) ++
    (entries.flatten ++ (putBe32 (UInt32.ofNat options.length) ++ options))))

theorem field_zero_mod {src : List UInt8} {off size mask k : Nat} (hmask : mask = 2 ^ k - 1) :
    field src off size 0 mask = readBe src off size % 2 ^ k := by
  rw [field, Nat.shiftRight_zero, hmask, Nat.and_two_pow_sub_one_eq_mod]

/-- What stands where in a well-formed payload. -/
structure SdReads (p : List UInt8) (flags : UInt8) (reserved : UInt32) (entries : List (List UInt8))
    (options : List UInt8) : Prop where
  flags_eq : readBe p 0 1 = flags.toNat
  reserved_eq : readBe p 1 3 = reserved.toNat % 2 ^ 24
  entriesLen : readBe p 4 4 = entries.length * 16
  entries_eq : parseEntries p (entries.length * 16) kMaxSdEntries 0 =
    (entries.take kMaxSdEntries).map decodeSdEntry
  optionsLen : readBe p (8 + entries.length * 16) 4 = options.length
  options_eq : (p.drop (8 + entries.length * 16 + 4)).take options.length = options
  length_le : 8 + entries.length * 16 + 4 + options.length ≤ p.length

theorem sdReads_layout (flags : UInt8) (reserved : UInt32) {entries : List (List UInt8)}
    {options : List UInt8} (trailing : List UInt8) (hentry : ∀ e ∈ entries, e.length = 16)
    (hentries : entries.length * 16 < 2 ^ 32) (hoptions : options.length < 2 ^ 32) :
    SdReads (sdLayout flags reserved entries options ++ trailing) flags reserved entries options := by
  have hflat := length_flatten_of_length hentry
  -- The payload as the eight bytes before the entries and what follows them.
  let pre := [flags] ++ (putBe24 reserved ++ putBe32 (UInt32.ofNat (entries.length * 16)))
  let rest := putBe32 (UInt32.ofNat options.length) ++ (options ++ trailing)
  have hsplit : sdLayout flags reserved entries options ++ trailing =
      pre ++ (entries.flatten ++ rest) := by simp [sdLayout, pre, rest]
  have hpre : pre.length = 8 := by simp [pre]
  rw [hsplit]
  refine ⟨?_, ?_, ?_, ?_, ?_, ?_, ?_⟩
  · simp only [pre, List.append_assoc]
    exact readBe_singleton flags
  · simp only [pre, List.append_assoc]
    rw [readBe_append_right (by simp)]
    exact readBe_putBe24 reserved _
  · simp only [pre, List.append_assoc]
    rw [readBe_append_right (by simp), readBe_append_right (by simp)]
    simp only [List.length_cons, List.length_nil, length_putBe24, Nat.reduceAdd, Nat.reduceSub]
    rw [readBe_putBe32, UInt32.toNat_ofNat_of_lt' hentries]
  · rw [parseEntries_eq hpre hentry, List.drop_zero]
  · have hstart : 8 + entries.length * 16 - 8 - entries.length * 16 = 0 := by omega
    rw [readBe_append_right (by omega), hpre, readBe_append_right (by omega), hflat, hstart,
      readBe_putBe32, UInt32.toNat_ofNat_of_lt' hoptions]
  · have hsum : 8 + entries.length * 16 + 4 = pre.length + (entries.flatten.length + 4) := by omega
    rw [hsum, ← List.drop_drop, List.drop_left, ← List.drop_drop, List.drop_left,
      List.drop_left' (length_putBe32 _), List.take_left]
  · have hlen : (pre ++ (entries.flatten ++ rest)).length =
        8 + (entries.length * 16 + (4 + (options.length + trailing.length))) := by
      simp [hpre, hflat, rest]
    omega

/-- **What the decoder makes of a well-formed payload**, whatever trails it. -/
theorem parseSdInto_layout (flags : UInt8) (reserved : UInt32) {entries : List (List UInt8)}
    {options : List UInt8} (trailing : List UInt8) (hentry : ∀ e ∈ entries, e.length = 16)
    (hentries : entries.length * 16 < 2 ^ 32) (hoptions : options.length < 2 ^ 32) :
    let w := (optionParser.frames options).1.foldl OptionWalk.store {}
    parseSdInto (.bytes (sdLayout flags reserved entries options ++ trailing)) =
      { sdFlags := flags
        sdReserved := UInt32.ofNat (reserved.toNat % 2 ^ 24)
        sdEntriesLen := UInt32.ofNat (entries.length * 16)
        sdOptionsLen := UInt32.ofNat options.length
        sdEntries := (entries.take kMaxSdEntries).map decodeSdEntry
        sdOptions := w.options
        sdConfigItems := w.configItems
        sdIpv4EndpointCount := w.endpointCount
        sdIpv4MulticastCount := w.multicastCount
        sdEntryCountWire := UInt16.ofNat entries.length
        sdIpv4EndpointCountWire := w.wireEndpoints } := by
  intro w
  have hreads := sdReads_layout flags reserved trailing hentry hentries hoptions
  generalize sdLayout flags reserved entries options ++ trailing = p at hreads
  have hlength := hreads.length_le
  have hfield0 : UInt8.ofNat (field p 0 1 0 0xFF) = flags := by
    rw [field_zero_mod (show 0xFF = 2 ^ 8 - 1 from rfl), hreads.flags_eq,
      Nat.mod_eq_of_lt flags.toNat_lt, UInt8.ofNat_toNat]
  have hfield1 : field p 1 3 0 0xFFFFFF = reserved.toNat % 2 ^ 24 := by
    rw [field_zero_mod (show 0xFFFFFF = 2 ^ 24 - 1 from rfl), hreads.reserved_eq, Nat.mod_mod]
  have hfield4 : field p 4 4 0 0xFFFFFFFF = entries.length * 16 := by
    rw [field_zero_mod (show 0xFFFFFFFF = 2 ^ 32 - 1 from rfl), hreads.entriesLen,
      Nat.mod_eq_of_lt hentries]
  have hwire : min (entries.length * 16) (p.length - 8) / kSdEntrySizeBytes = entries.length := by
    rw [Nat.min_eq_left (by omega)]
    exact Nat.mul_div_cancel _ (by decide)
  have h4 : ¬ p.length < 4 := by omega
  have h8 : ¬ p.length < 8 := by omega
  have hcovered : 8 + entries.length * 16 + 4 ≤ p.length := by omega
  have hstart : ¬ 8 + entries.length * 16 + 4 > p.length := by omega
  simp only [parseSdInto, if_neg h4, if_neg h8, hfield0, hfield1, hfield4, hreads.entries_eq, hwire,
    if_pos hcovered, hreads.optionsLen, if_neg hstart, hreads.options_eq, optionLoop_eq]
  by_cases hnone : options.length = 0
  · have hw : w = {} := by
      simp only [w, List.length_eq_zero_iff.1 hnone, optionParser.frames_of_none optionParser.parse_nil,
        List.foldl_nil]
    rw [if_pos hnone, hw]
  · rw [if_neg hnone]
    rfl

end Tc8Harness.Someip
