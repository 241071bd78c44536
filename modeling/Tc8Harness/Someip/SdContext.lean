import Tc8Harness.Someip.SdDecode

/-!
# The decoder's context

`parseSdInto` as it runs on the harness: into an `SdContext` that held another frame before, with its
fixed arrays and their counts, and over bytes it must not read past. Every read of the payload and every
access to an array is checked here, and `none` stands for one out of range. `parseSdInto_eq` says that
there is none, that the loops end, and that what is left in the context is `SdDecode`'s reading of the
payload alone.
-/

namespace Tc8Harness.Someip

open BigEndian Wire
open SomeipTp (Buffer)

/-! ## Arrays with a count -/

section Slots

variable {α : Type} {n : Nat}

/-- An array of `n` slots that holds the list and, behind it, `default`. -/
def slots (n : Nat) (l : List α) (default : α) : Vector α n := Vector.ofFn fun i => l.getD i default

/-- A checked write. -/
def put? (v : Vector α n) (i : Nat) (x : α) : Option (Vector α n) :=
  if h : i < n then some (v.set i x) else none

variable {l : List α} {default : α}

theorem slots_nil : slots n [] default = Vector.replicate n default := by
  ext i hi
  simp [slots]

theorem getElem?_slots {i : Nat} (hi : i < l.length) (h : l.length ≤ n) :
    (slots n l default)[i]? = some l[i] := by
  rw [Vector.getElem?_eq_getElem (show i < n by omega)]
  simp [slots, hi]

theorem getElem?_slots_length (h : l.length < n) : (slots n l default)[l.length]? = some default := by
  rw [Vector.getElem?_eq_getElem h]
  simp [slots]

theorem put?_slots (h : l.length < n) (x : α) :
    put? (slots n l default) l.length x = some (slots n (l ++ [x]) default) := by
  rw [put?, dif_pos h, Option.some.injEq]
  ext i hi
  rw [Vector.getElem_set]
  simp only [slots, Vector.getElem_ofFn, List.getD_eq_getElem?_getD]
  split
  · next heq => simp [← heq]
  · next hne =>
    rcases Nat.lt_or_gt_of_ne hne with hlt | hgt
    · rw [List.getElem?_eq_none (by omega), List.getElem?_eq_none (by simp; omega)]
    · rw [List.getElem?_append_left hgt]

end Slots

structure ConfigItemSlot where
  len : UInt8 := 0
  captured : UInt8 := 0
  bytes : Vector UInt8 kMaxSdConfigItemLen := Vector.replicate _ 0
  deriving DecidableEq

/-- `SdDecoded` with its arrays. -/
structure SdContext where
  sdFlags : UInt8 := 0
  sdReserved : UInt32 := 0
  sdEntriesLen : UInt32 := 0
  sdOptionsLen : UInt32 := 0
  sdEntryCount : UInt8 := 0
  sdEntries : Vector SdEntry kMaxSdEntries := Vector.replicate _ {}
  sdOptionCount : UInt8 := 0
  sdOptions : Vector SdOption kMaxSdOptions := Vector.replicate _ {}
  sdConfigItemCount : UInt8 := 0
  sdConfigItems : Vector ConfigItemSlot kMaxSdConfigItems := Vector.replicate _ {}
  sdIpv4EndpointCount : UInt8 := 0
  sdIpv4MulticastCount : UInt8 := 0
  sdEntryCountWire : UInt16 := 0
  sdIpv4EndpointCountWire : UInt16 := 0
  deriving DecidableEq

def SdContext.resetPerFrameDecode (_ : SdContext) : SdContext := {}

/-! ## Checked reads -/

def readBe? (p : List UInt8) (off size : Nat) : Option Nat :=
  if off + size ≤ p.length then some (readBe p off size) else none

def field? (p : List UInt8) (off size shift mask : Nat) : Option Nat :=
  (readBe? p off size).map fun v => (v >>> shift) &&& mask

/-- The source of a `memcpy`. -/
def copy? (p : List UInt8) (off size : Nat) : Option (List UInt8) :=
  if off + size ≤ p.length then some ((p.drop off).take size) else none

def checkedSdEntry (p : List UInt8) (src : Nat) : Option SdEntry := do
  let type ← field? p (src + 0) 1 0 0xFF
  let indexFirst ← field? p (src + 1) 1 0 0xFF
  let indexSecond ← field? p (src + 2) 1 0 0xFF
  let numOpt1 ← field? p (src + 3) 1 4 0x0F
  let numOpt2 ← field? p (src + 3) 1 0 0x0F
  let serviceId ← field? p (src + 4) 2 0 0xFFFF
  let instanceId ← field? p (src + 6) 2 0 0xFFFF
  let majorVersion ← field? p (src + 8) 1 0 0xFF
  let ttl ← field? p (src + 9) 3 0 0xFFFFFF
  let minorVersion ← field? p (src + 12) 4 0 0xFFFFFFFF
  let entryReserved ← field? p (src + 12) 2 4 0x0FFF
  let counter ← field? p (src + 12) 2 0 0x0F
  let eventgroupId ← field? p (src + 14) 2 0 0xFFFF
  return { type := UInt8.ofNat type, indexFirst := UInt8.ofNat indexFirst
           indexSecond := UInt8.ofNat indexSecond, numOpt1 := UInt8.ofNat numOpt1
           numOpt2 := UInt8.ofNat numOpt2, serviceId := UInt16.ofNat serviceId
           instanceId := UInt16.ofNat instanceId, majorVersion := UInt8.ofNat majorVersion
           ttl := UInt32.ofNat ttl, minorVersion := UInt32.ofNat minorVersion
           entryReserved := UInt16.ofNat entryReserved, counter := UInt8.ofNat counter
           eventgroupId := UInt16.ofNat eventgroupId }

/-- The loop over the entries, from index `i` on, with `parsed`. -/
def entriesLoop (p : List UInt8) (declared : Nat) :
    Nat → Nat → SdContext → UInt8 → Option (SdContext × UInt8)
  | 0, _, d, parsed => some (d, parsed)
  | left + 1, i, d, parsed =>
    let offset := 8 + i * kSdEntrySizeBytes
    if offset + kSdEntrySizeBytes > p.length then some (d, parsed)
    else if declared < (i + 1) * kSdEntrySizeBytes then some (d, parsed)
    else do
      let entry ← checkedSdEntry p offset
      let sdEntries ← put? d.sdEntries i entry
      entriesLoop p declared left (i + 1) { d with sdEntries := sdEntries } (UInt8.ofNat (i + 1))

/-! ## Options -/

/-- The locals of the option loop, with the context it writes. -/
structure OptionRegs where
  ctx : SdContext
  optParsed : UInt8 := 0
  endpointCount : UInt8 := 0
  multicastCount : UInt8 := 0
  wireEndpoints : UInt16 := 0
  configSeen : Bool := false

def decodeEndpoint? (dst : SdOption) (p : List UInt8) (o : Nat) : Option SdOption := do
  let reserved1 ← field? p (o + 3) 1 0 0xFF
  let ipv4 ← copy? p (o + 4) 4
  let reserved2 ← field? p (o + 8) 1 0 0xFF
  let l4Proto ← field? p (o + 9) 1 0 0xFF
  let port ← field? p (o + 10) 2 0 0xFFFF
  return { dst with
    reserved1 := UInt8.ofNat reserved1
    ipv4 := copy32 ipv4 0
    reserved2 := UInt8.ofNat reserved2
    l4Proto := UInt8.ofNat l4Proto
    port := UInt16.ofNat port }

/-- `memcpy` into the front of a slot's bytes. -/
def overwrite {n : Nat} (old : Vector UInt8 n) (bytes : List UInt8) : Vector UInt8 n :=
  Vector.ofFn fun i => bytes.getD i old[i]

/-- The loop over the items of the configuration string at `cs`, from `at_` on, with `items`. -/
def configLoop (p : List UInt8) (cs csLen : Nat) :
    Nat → Nat → Vector ConfigItemSlot kMaxSdConfigItems → UInt8 →
      Option (Vector ConfigItemSlot kMaxSdConfigItems × UInt8)
  | 0, _, stored, items => some (stored, items)
  | left + 1, at_, stored, items =>
    if at_ ≥ csLen then some (stored, items)
    else do
      let itemLen ← p[cs + at_]?
      if itemLen = 0 then some (stored, items)
      else if at_ + 1 + itemLen.toNat > csLen then some (stored, items)
      else
        let captured := if itemLen.toNat < kMaxSdConfigItemLen then itemLen.toNat else kMaxSdConfigItemLen
        let bytes ← copy? p (cs + (at_ + 1)) captured
        let item ← stored[items.toNat]?
        let stored ← put? stored items.toNat
          { item with len := itemLen, captured := UInt8.ofNat captured, bytes := overwrite item.bytes bytes }
        configLoop p cs csLen left (at_ + 1 + itemLen.toNat) stored (items + 1)

/-- The fields an endpoint-bearing option fills. -/
def endpointPart (p : List UInt8) (o optLen : Nat) (optType : UInt8) (dst : SdOption) : Option SdOption :=
  if (optType = kIpv4Endpoint ∨ optType = kIpv4Multicast ∨ optType = kIpv4SdEndpoint) ∧
      3 + optLen ≥ 12 then decodeEndpoint? dst p o
  else some dst

/-- The fields a Configuration option fills when its string is read. -/
def configPart (p : List UInt8) (o optLen : Nat) (takesConfig : Bool) (dst : SdOption) (ctx : SdContext) :
    Option (SdOption × SdContext) :=
  if takesConfig then do
    let reserved1 ← p[o + 3]?
    let (items, count) ← configLoop p (o + 4) (optLen - 1) kMaxSdConfigItems 0 ctx.sdConfigItems 0
    return ({ dst with reserved1 := reserved1 },
      { ctx with sdConfigItems := items, sdConfigItemCount := count })
  else some (dst, ctx)

/-- The body of the option loop for the option at `o`, which lies within both bounds. -/
def optionBody (p : List UInt8) (o optLen : Nat) (optType : UInt8) (r : OptionRegs) :
    Option OptionRegs :=
  let wireEndpoints := if optType = kIpv4Endpoint then r.wireEndpoints + 1 else r.wireEndpoints
  if r.optParsed.toNat ≥ kMaxSdOptions then some { r with wireEndpoints := wireEndpoints }
  else do
    let dst ← r.ctx.sdOptions[r.optParsed.toNat]?
    let dst ← endpointPart p o optLen optType { dst with length := UInt16.ofNat optLen, type := optType }
    let takesConfig := optType == kConfiguration && !r.configSeen && decide (optLen ≥ 1)
    let (dst, ctx) ← configPart p o optLen takesConfig dst r.ctx
    let sdOptions ← put? ctx.sdOptions r.optParsed.toNat dst
    return { ctx := { ctx with sdOptions := sdOptions }
             optParsed := r.optParsed + 1
             endpointCount := if optType = kIpv4Endpoint then r.endpointCount + 1 else r.endpointCount
             multicastCount :=
               if optType = kIpv4Multicast then r.multicastCount + 1 else r.multicastCount
             wireEndpoints := wireEndpoints
             configSeen := r.configSeen || takesConfig }

/-- The loop over the options at `start`. An option takes three bytes at least, so the cursor comes
to the end of the declared array. -/
def optionsLoop (p : List UInt8) (start declared cursor : Nat) (r : OptionRegs) : Option OptionRegs :=
  if cursor + 3 ≤ declared ∧ start + cursor + 3 ≤ p.length then
    match readBe? p (start + cursor) 2, p[start + cursor + 2]? with
    | some optLen, some optType =>
      let optTotal := 3 + optLen
      if cursor + optTotal > declared then some r
      else if start + cursor + optTotal > p.length then some r
      else
        match optionBody p (start + cursor) optLen optType r with
        | some r => optionsLoop p start declared (cursor + optTotal) r
        | none => none
    | _, _ => none
  else some r
termination_by declared - cursor
decreasing_by omega

/-- The length of the options array, where the payload covers it. -/
def optionsLenPart (p : List UInt8) (offset : Nat) (d : SdContext) : Option SdContext :=
  if offset + 4 ≤ p.length then
    (readBe? p offset 4).map fun len => { d with sdOptionsLen := UInt32.ofNat len }
  else some d

/-- `parseSdInto`. -/
def SdContext.parseSdInto (d : SdContext) (payload : Buffer) : Option SdContext :=
  let d := d.resetPerFrameDecode
  match payload with
  | .null _ => some d
  | .bytes p =>
    if p.length < 4 then some d
    else do
      let flags ← field? p 0 1 0 0xFF
      let reserved ← field? p 1 3 0 0xFFFFFF
      let d := { d with sdFlags := UInt8.ofNat flags, sdReserved := UInt32.ofNat reserved }
      if p.length < 8 then some d
      else
        let entriesLen ← field? p 4 4 0 0xFFFFFFFF
        let d := { d with sdEntriesLen := UInt32.ofNat entriesLen }
        let declaredEntries := d.sdEntriesLen.toNat
        let (d, parsed) ← entriesLoop p declaredEntries kMaxSdEntries 0 d 0
        let d :=
          { d with
            sdEntryCount := parsed
            sdEntryCountWire :=
              UInt16.ofNat (min declaredEntries (p.length - 8) / kSdEntrySizeBytes) }
        let optionsLenOffset := 8 + declaredEntries
        let d ← optionsLenPart p optionsLenOffset d
        let optionsStart := optionsLenOffset + 4
        if optionsStart > p.length then some d
        else
          let declaredOptions := d.sdOptionsLen.toNat
          if declaredOptions = 0 then some d
          else
            let r ← optionsLoop p optionsStart declaredOptions 0 { ctx := d }
            some
              { r.ctx with
                sdOptionCount := r.optParsed
                sdIpv4EndpointCount := r.endpointCount
                sdIpv4MulticastCount := r.multicastCount
                sdIpv4EndpointCountWire := r.wireEndpoints }

/-! ## The context against the decoded payload -/

def ConfigItemSlot.of (item : SdConfigItem) : ConfigItemSlot :=
  ⟨item.len, item.captured, slots _ item.bytes 0⟩

/-- The context that holds a decoded payload. -/
def SdContext.of (s : SdDecoded) : SdContext :=
  { sdFlags := s.sdFlags
    sdReserved := s.sdReserved
    sdEntriesLen := s.sdEntriesLen
    sdOptionsLen := s.sdOptionsLen
    sdEntryCount := UInt8.ofNat s.sdEntries.length
    sdEntries := slots _ s.sdEntries {}
    sdOptionCount := UInt8.ofNat s.sdOptions.length
    sdOptions := slots _ s.sdOptions {}
    sdConfigItemCount := UInt8.ofNat s.sdConfigItems.length
    sdConfigItems := slots _ (s.sdConfigItems.map ConfigItemSlot.of) {}
    sdIpv4EndpointCount := s.sdIpv4EndpointCount
    sdIpv4MulticastCount := s.sdIpv4MulticastCount
    sdEntryCountWire := s.sdEntryCountWire
    sdIpv4EndpointCountWire := s.sdIpv4EndpointCountWire }

section Reads

variable {p : List UInt8} {src off size : Nat}

theorem readBe?_eq (h : src + (off + size) ≤ p.length) :
    readBe? p (src + off) size = some (readBe (p.drop src) off size) := by
  rw [readBe?, if_pos (by omega), readBe_drop]

theorem field?_eq (shift mask : Nat) (h : src + (off + size) ≤ p.length) :
    field? p (src + off) size shift mask = some (field (p.drop src) off size shift mask) := by
  rw [field?, readBe?_eq h]
  rfl

theorem field?_of_le (shift mask : Nat) (h : off + size ≤ p.length) :
    field? p off size shift mask = some (field p off size shift mask) := by
  rw [field?, readBe?, if_pos h]
  rfl

theorem checkedSdEntry_eq (h : src + 16 ≤ p.length) :
    checkedSdEntry p src = some (decodeSdEntry (p.drop src)) := by
  simp (disch := omega) only [checkedSdEntry, field?_eq, Option.bind_eq_bind, Option.bind_some]
  rfl

theorem decodeEndpoint?_eq (dst : SdOption) (h : src + 12 ≤ p.length) :
    decodeEndpoint? dst p src = some (decodeEndpoint dst (p.drop src)) := by
  have hcopy : copy? p (src + 4) 4 = some (((p.drop src).drop 4).take 4) := by
    rw [copy?, if_pos (by omega), List.drop_drop]
  have hword : copy32 (((p.drop src).drop 4).take 4) 0 = copy32 (p.drop src) 4 := by
    rw [copy32, copy32, List.drop_zero, List.take_take, Nat.min_self]
  simp (disch := omega) only [decodeEndpoint?, field?_eq, hcopy, Option.bind_eq_bind, Option.bind_some,
    hword]
  rfl

end Reads

theorem entriesLoop_eq {p : List UInt8} {declared : Nat} {left : Nat} {acc : List SdEntry} (d : SdContext)
    (hleft : acc.length + left = kMaxSdEntries) (hslots : d.sdEntries = slots _ acc {}) :
    entriesLoop p declared left acc.length d (UInt8.ofNat acc.length) =
      some ({ d with sdEntries := slots _ (acc ++ parseEntries p declared left acc.length) {} },
        UInt8.ofNat (acc ++ parseEntries p declared left acc.length).length) := by
  induction left generalizing acc d with
  | zero =>
    rw [entriesLoop, parseEntries, List.append_nil, ← hslots]
  | succ left ih =>
    rw [entriesLoop, parseEntries]
    split_ifs with hcut hdeclared
    · rw [List.append_nil, ← hslots]
    · rw [List.append_nil, ← hslots]
    · generalize hsrc : 8 + acc.length * kSdEntrySizeBytes = src at hcut
      have hentry : checkedSdEntry p src = some (decodeSdEntry (p.drop src)) :=
        checkedSdEntry_eq (by simpa only [kSdEntrySizeBytes] using Nat.le_of_not_lt hcut)
      generalize decodeSdEntry (p.drop src) = entry at hentry
      have hput : put? d.sdEntries acc.length entry = some (slots _ (acc ++ [entry]) {}) := by
        rw [hslots]
        exact put?_slots (by omega) entry
      have hnext := ih { d with sdEntries := slots _ (acc ++ [entry]) {} }
        (show (acc ++ [entry]).length + left = _ by
          rw [List.length_append, List.length_singleton]; omega) rfl
      rw [List.length_append, List.length_singleton] at hnext
      simp only [hentry, hput, hnext, Option.bind_eq_bind, Option.bind_some, List.append_assoc,
        List.singleton_append]

/-! ## Options -/

theorem overwrite_replicate {n : Nat} (bytes : List UInt8) :
    overwrite (Vector.replicate n 0) bytes = slots n bytes 0 := by
  ext i hi
  simp [overwrite, slots]

/-- The items of a configuration string, by the loop and by the list. -/
theorem configLoop_eq {p : List UInt8} {cs csLen left at_ : Nat} {acc : List SdConfigItem}
    (hin : cs + csLen ≤ p.length) (hleft : acc.length + left = kMaxSdConfigItems) (hat : at_ ≤ csLen) :
    configLoop p cs csLen left at_ (slots _ (acc.map ConfigItemSlot.of) {}) (UInt8.ofNat acc.length) =
      some (slots _ ((acc ++ parseConfigItems left (((p.drop cs).take csLen).drop at_)).map
          ConfigItemSlot.of) {},
        UInt8.ofNat (acc ++ parseConfigItems left (((p.drop cs).take csLen).drop at_)).length) := by
  induction left generalizing acc at_ with
  | zero => rw [configLoop, parseConfigItems, List.append_nil]
  | succ left ih =>
    have hlen : ((p.drop cs).take csLen).length = csLen := by
      rw [List.length_take, List.length_drop]
      omega
    rw [configLoop]
    by_cases hend : at_ ≥ csLen
    · rw [if_pos hend, List.drop_eq_nil_of_le (by omega), parseConfigItems, List.append_nil]
    have hlt : cs + at_ < p.length := by omega
    have hcons : ((p.drop cs).take csLen).drop at_ =
        p[cs + at_] :: ((p.drop cs).take csLen).drop (at_ + 1) := by
      rw [List.drop_eq_getElem_cons (by omega), List.getElem_take, List.getElem_drop]
    rw [if_neg hend, hcons, parseConfigItems, List.getElem?_eq_getElem hlt]
    simp only [Option.bind_eq_bind, Option.bind_some]
    generalize p[cs + at_] = itemLen
    have hrest : (((p.drop cs).take csLen).drop (at_ + 1)).length = csLen - (at_ + 1) := by
      rw [List.length_drop, hlen]
    rw [hrest]
    by_cases hzero : itemLen = 0
    · rw [if_pos hzero, if_pos hzero, List.append_nil]
    by_cases hpast : at_ + 1 + itemLen.toNat > csLen
    · rw [if_neg hzero, if_pos hpast, if_neg hzero, if_pos (by omega), List.append_nil]
    rw [if_neg hzero, if_neg hpast, if_neg hzero,
      if_neg (show ¬ itemLen.toNat > csLen - (at_ + 1) by omega)]
    have hcaptured : (if itemLen.toNat < kMaxSdConfigItemLen then itemLen.toNat else kMaxSdConfigItemLen) ≤
        itemLen.toNat := by
      split <;> omega
    generalize (if itemLen.toNat < kMaxSdConfigItemLen then itemLen.toNat else kMaxSdConfigItemLen) =
      captured at hcaptured
    have hbytes : copy? p (cs + (at_ + 1)) captured =
        some ((((p.drop cs).take csLen).drop (at_ + 1)).take captured) := by
      rw [copy?, if_pos (by omega), List.drop_take, List.take_take, List.drop_drop,
        Nat.min_eq_left (by omega)]
    generalize (((p.drop cs).take csLen).drop (at_ + 1)).take captured = bytes at hbytes
    have hcount : (UInt8.ofNat acc.length).toNat = (acc.map ConfigItemSlot.of).length := by
      rw [UInt8.toNat_ofNat', List.length_map]
      exact Nat.mod_eq_of_lt (by simp only [kMaxSdConfigItems] at hleft; omega)
    have hroom : (acc.map ConfigItemSlot.of).length < kMaxSdConfigItems := by
      rw [List.length_map]
      omega
    have hnext := ih (show (acc ++ [SdConfigItem.mk itemLen (UInt8.ofNat captured) bytes]).length + left = _ by
      rw [List.length_append, List.length_singleton]; omega) (Nat.le_of_not_lt hpast)
    rw [List.append_assoc, List.singleton_append, List.map_append, List.length_append,
      List.length_singleton, UInt8.ofNat_add] at hnext
    rw [hbytes, hcount]
    simp only [Option.bind_some, getElem?_slots_length hroom, put?_slots hroom, overwrite_replicate,
      List.drop_drop]
    exact hnext

/-- The loop's locals for what has been stored so far. -/
def OptionRegs.of (d : SdContext) (w : OptionWalk) : OptionRegs :=
  { ctx :=
      { d with
        sdOptions := slots _ w.options {}
        sdConfigItems := slots _ (w.configItems.map ConfigItemSlot.of) {}
        sdConfigItemCount := UInt8.ofNat w.configItems.length }
    optParsed := UInt8.ofNat w.options.length
    endpointCount := w.endpointCount
    multicastCount := w.multicastCount
    wireEndpoints := w.wireEndpoints
    configSeen := w.configSeen }

/-- No more options than slots, and no items before the first Configuration option. -/
structure OptionWalk.Fits (w : OptionWalk) : Prop where
  options : w.options.length ≤ kMaxSdOptions
  items : w.configSeen = false → w.configItems = []

theorem OptionWalk.Fits.store {w : OptionWalk} (h : w.Fits) (o : List UInt8) : (w.store o).Fits := by
  unfold OptionWalk.store
  dsimp only
  split
  · exact ⟨h.options, h.items⟩
  · next hroom =>
    refine ⟨?_, fun hseen => ?_⟩
    · rw [List.length_append, List.length_singleton]
      omega
    · dsimp only at hseen ⊢
      rw [Bool.or_eq_false_iff] at hseen
      rw [hseen.2, if_neg Bool.false_ne_true]
      exact h.items hseen.1

theorem decodeEndpoint_take (dst : SdOption) (p : List UInt8) {n : Nat} (h : 12 ≤ n) :
    decodeEndpoint dst (p.take n) = decodeEndpoint dst p := by
  have hread : ∀ off size, off + size ≤ 12 → readBe (p.take n) off size = readBe p off size := by
    intro off size hle
    rw [readBe, readBe, List.drop_take, List.take_take, Nat.min_eq_left (by omega)]
  have hword : copy32 (p.take n) 4 = copy32 p 4 := by
    rw [copy32, copy32, List.drop_take, List.take_take, Nat.min_eq_left (by omega)]
  simp (disch := decide) only [decodeEndpoint, field, hread, hword]

section Body

variable {p : List UInt8} {o optLen : Nat} {optType : UInt8} {w : OptionWalk}

theorem endpointPart_eq (dst : SdOption) (hin : o + (3 + optLen) ≤ p.length) :
    endpointPart p o optLen optType dst =
      some (if (optType = kIpv4Endpoint ∨ optType = kIpv4Multicast ∨ optType = kIpv4SdEndpoint) ∧
        3 + optLen ≥ 12 then decodeEndpoint dst ((p.drop o).take (3 + optLen)) else dst) := by
  unfold endpointPart
  split
  · next h => rw [decodeEndpoint?_eq dst (by omega), decodeEndpoint_take dst _ h.2]
  · rfl

theorem configPart_eq (dst : SdOption) (d : SdContext) (hw : w.Fits) (hin : o + (3 + optLen) ≤ p.length)
    (hlen : readBe ((p.drop o).take (3 + optLen)) 0 2 = optLen) :
    configPart p o optLen (w.takesConfig ((p.drop o).take (3 + optLen))) dst (OptionRegs.of d w).ctx =
      some (if w.takesConfig ((p.drop o).take (3 + optLen)) then
          { dst with reserved1 := ((p.drop o).take (3 + optLen)).getD 3 0 } else dst,
        (OptionRegs.of d { w with
          configItems := if w.takesConfig ((p.drop o).take (3 + optLen)) then
            parseConfigItems kMaxSdConfigItems (((p.drop o).take (3 + optLen)).drop 4)
            else w.configItems }).ctx) := by
  unfold configPart
  cases htakes : w.takesConfig ((p.drop o).take (3 + optLen)) with
  | false => rfl
  | true =>
    simp only [OptionWalk.takesConfig, hlen, Bool.and_eq_true, Bool.not_eq_true', decide_eq_true_eq]
      at htakes
    obtain ⟨⟨-, hseen⟩, hbody⟩ := htakes
    have hreserved : p[o + 3]? = some (((p.drop o).take (3 + optLen)).getD 3 0) := by
      rw [List.getElem?_eq_getElem (show o + 3 < p.length by omega), List.getD_eq_getElem?_getD,
        List.getElem?_take_of_lt (by omega), List.getElem?_drop,
        List.getElem?_eq_getElem (show o + 3 < p.length by omega)]
      rfl
    have hstring : ((p.drop (o + 4)).take (optLen - 1)).drop 0 = ((p.drop o).take (3 + optLen)).drop 4 := by
      rw [List.drop_zero, List.drop_take, List.drop_drop, show 3 + optLen - 4 = optLen - 1 by omega]
    have hloop : configLoop p (o + 4) (optLen - 1) kMaxSdConfigItems 0 (OptionRegs.of d w).ctx.sdConfigItems
        0 = some (slots _ ((parseConfigItems kMaxSdConfigItems
            (((p.drop o).take (3 + optLen)).drop 4)).map ConfigItemSlot.of) {},
          UInt8.ofNat (parseConfigItems kMaxSdConfigItems
            (((p.drop o).take (3 + optLen)).drop 4)).length) := by
      have hempty : (OptionRegs.of d w).ctx.sdConfigItems =
          slots _ (([] : List SdConfigItem).map ConfigItemSlot.of) {} := by
        simp only [OptionRegs.of, hw.items hseen]
      rw [hempty, ← hstring]
      exact configLoop_eq (by omega) rfl (Nat.zero_le _)
    rw [if_pos rfl, hreserved, hloop]
    rfl

theorem optionBody_eq (d : SdContext) (hw : w.Fits) (hin : o + (3 + optLen) ≤ p.length)
    (hlen : readBe ((p.drop o).take (3 + optLen)) 0 2 = optLen)
    (htype : ((p.drop o).take (3 + optLen)).getD 2 0 = optType) :
    optionBody p o optLen optType (OptionRegs.of d w) =
      some (OptionRegs.of d (w.store ((p.drop o).take (3 + optLen)))) := by
  have hcount : (OptionRegs.of d w).optParsed.toNat = w.options.length := by
    have hle := hw.options
    simp only [OptionRegs.of, UInt8.toNat_ofNat', kMaxSdOptions] at hle ⊢
    omega
  unfold optionBody OptionWalk.store
  rw [hcount, htype]
  dsimp only
  by_cases hfull : w.options.length ≥ kMaxSdOptions
  · rw [if_pos hfull, if_pos hfull]
    rfl
  have hroom : w.options.length < kMaxSdOptions := Nat.lt_of_not_le hfull
  have hslot : (OptionRegs.of d w).ctx.sdOptions[w.options.length]? = some {} :=
    getElem?_slots_length hroom
  have htakes : (optType == kConfiguration && !(OptionRegs.of d w).configSeen && decide (optLen ≥ 1)) =
      w.takesConfig ((p.drop o).take (3 + optLen)) := by
    rw [OptionWalk.takesConfig, hlen, htype]
    rfl
  rw [if_neg hfull, if_neg hfull, hslot, htakes]
  simp only [Option.bind_eq_bind, Option.bind_some, endpointPart_eq _ hin, configPart_eq _ d hw hin hlen]
  have hput : ∀ items dst, put? (OptionRegs.of d { w with configItems := items }).ctx.sdOptions
      w.options.length dst = some (slots _ (w.options ++ [dst]) {}) := fun _ dst => put?_slots hroom dst
  simp only [hput, Option.bind_some, storedOption, hlen, htype]
  simp only [OptionRegs.of, List.length_append, List.length_singleton, UInt8.ofNat_add]
  rfl

end Body

/-! ## The whole payload -/

/-- The loop over the options, by the cursor and by what is left of the array. -/
theorem optionsLoop_eq {p : List UInt8} {start declared cursor steps : Nat} {w : OptionWalk} (d : SdContext)
    (hw : w.Fits) (hsteps : (((p.drop start).take declared).drop cursor).length ≤ steps) :
    optionsLoop p start declared cursor (OptionRegs.of d w) =
      some (OptionRegs.of d (optionLoop steps (((p.drop start).take declared).drop cursor) w)) := by
  induction steps generalizing cursor w with
  | zero =>
    rw [List.length_drop, List.length_take, List.length_drop] at hsteps
    rw [optionsLoop, if_neg (by omega)]
    rfl
  | succ steps ih =>
    have hlen : (((p.drop start).take declared).drop cursor).length =
        min declared (p.length - start) - cursor := by
      rw [List.length_drop, List.length_take, List.length_drop]
    rw [optionsLoop, optionLoop, hlen]
    by_cases hthree : cursor + 3 ≤ declared ∧ start + cursor + 3 ≤ p.length
    · rw [if_pos hthree, if_neg (by omega)]
      have hwindow : ((p.drop start).take declared).drop cursor =
          (p.drop (start + cursor)).take (declared - cursor) := by
        rw [List.drop_take, List.drop_drop]
      have hread : readBe? p (start + cursor) 2 =
          some (readBe (((p.drop start).take declared).drop cursor) 0 2) := by
        rw [readBe?, if_pos (by omega), hwindow, readBe, readBe, List.drop_zero, List.take_take,
          Nat.min_eq_left (by omega)]
      have hbyte : p[start + cursor + 2]? =
          some ((((p.drop start).take declared).drop cursor).getD 2 0) := by
        rw [hwindow, List.getD_eq_getElem?_getD, List.getElem?_take_of_lt (by omega), List.getElem?_drop,
          List.getElem?_eq_getElem (show start + cursor + 2 < p.length by omega), Option.getD_some]
      rw [hread, hbyte]
      dsimp only
      generalize hoptLen : readBe (((p.drop start).take declared).drop cursor) 0 2 = optLen
      generalize hoptType : (((p.drop start).take declared).drop cursor).getD 2 0 = optType
      by_cases hpast : cursor + (3 + optLen) > declared ∨ start + cursor + (3 + optLen) > p.length
      · rw [if_pos (show 3 + optLen > min declared (p.length - start) - cursor by omega)]
        rcases hpast with hpast | hpast
        · rw [if_pos hpast]
        · rw [if_pos hpast, ite_self]
      rw [not_or] at hpast
      have htake : (((p.drop start).take declared).drop cursor).take (3 + optLen) =
          (p.drop (start + cursor)).take (3 + optLen) := by
        rw [hwindow, List.take_take, Nat.min_eq_left (by omega)]
      have hbody : optionBody p (start + cursor) optLen optType (OptionRegs.of d w) =
          some (OptionRegs.of d (w.store ((p.drop (start + cursor)).take (3 + optLen)))) := by
        refine optionBody_eq d hw (by omega) ?_ ?_
        · rw [← htake, ← hoptLen, readBe, readBe, List.drop_zero, List.drop_zero, List.take_take,
            Nat.min_eq_left (by omega)]
        · rw [← htake, ← hoptType, List.getD_eq_getElem?_getD, List.getD_eq_getElem?_getD,
            List.getElem?_take_of_lt (by omega)]
      rw [if_neg hpast.1, if_neg hpast.2, hbody,
        if_neg (show ¬ 3 + optLen > min declared (p.length - start) - cursor by omega), htake,
        List.drop_drop]
      refine ih (hw.store _) ?_
      rw [List.length_drop, List.length_take, List.length_drop]
      omega
    · rw [if_neg hthree, if_pos (by omega)]

theorem optionsLenPart_eq (p : List UInt8) (offset : Nat) (d : SdContext) (hd : d.sdOptionsLen = 0) :
    optionsLenPart p offset d = some { d with
      sdOptionsLen := UInt32.ofNat (if offset + 4 ≤ p.length then readBe p offset 4 else 0) } := by
  unfold optionsLenPart
  split
  · next h =>
    rw [readBe?, if_pos h]
    rfl
  · rw [show UInt32.ofNat 0 = d.sdOptionsLen from hd.symm]

/-- **The decoder is total, in bounds and blind to the past.** Whatever the context held, every access
is in range, and the context then holds the reading of the payload. -/
theorem parseSdInto_eq (d : SdContext) (payload : Buffer) :
    d.parseSdInto payload = some (SdContext.of (parseSdInto payload)) := by
  unfold SdContext.parseSdInto parseSdInto SdContext.resetPerFrameDecode
  cases payload with
  | null len => simp [SdContext.of, slots_nil]
  | bytes p =>
    dsimp only
    by_cases h4 : p.length < 4
    · rw [if_pos h4, if_pos h4]
      simp [SdContext.of, slots_nil]
    rw [if_neg h4, if_neg h4, field?_of_le 0 0xFF (show 0 + 1 ≤ p.length by omega),
      field?_of_le 0 0xFFFFFF (show 1 + 3 ≤ p.length by omega)]
    simp only [Option.bind_eq_bind, Option.bind_some]
    by_cases h8 : p.length < 8
    · rw [if_pos h8, if_pos h8]
      simp [SdContext.of, slots_nil]
    rw [if_neg h8, if_neg h8, field?_of_le 0 0xFFFFFFFF (show 4 + 4 ≤ p.length by omega)]
    simp only [Option.bind_some]
    have hdeclared : (UInt32.ofNat (field p 4 4 0 0xFFFFFFFF)).toNat = field p 4 4 0 0xFFFFFFFF :=
      UInt32.toNat_ofNat_of_lt' (Nat.lt_succ_of_le Nat.and_le_right)
    rw [hdeclared]
    generalize field p 4 4 0 0xFFFFFFFF = declaredEntries
    generalize field p 0 1 0 0xFF = flags
    generalize field p 1 3 0 0xFFFFFF = reserved
    have hentries : entriesLoop p declaredEntries kMaxSdEntries 0
        { sdFlags := UInt8.ofNat flags
          sdReserved := UInt32.ofNat reserved
          sdEntriesLen := UInt32.ofNat declaredEntries } 0 =
        some ({ sdFlags := UInt8.ofNat flags
                sdReserved := UInt32.ofNat reserved
                sdEntriesLen := UInt32.ofNat declaredEntries
                sdEntries := slots _ (parseEntries p declaredEntries kMaxSdEntries 0) {} },
          UInt8.ofNat (parseEntries p declaredEntries kMaxSdEntries 0).length) :=
      entriesLoop_eq _ (show ([] : List SdEntry).length + kMaxSdEntries = _ from rfl) slots_nil.symm
    rw [hentries]
    simp only [Option.bind_some, optionsLenPart_eq]
    have hoptions : (UInt32.ofNat (if 8 + declaredEntries + 4 ≤ p.length then
          readBe p (8 + declaredEntries) 4 else 0)).toNat =
        if 8 + declaredEntries + 4 ≤ p.length then readBe p (8 + declaredEntries) 4 else 0 := by
      split
      · have hlt := ofBE_lt ((p.drop (8 + declaredEntries)).take 4)
        have hle : ((p.drop (8 + declaredEntries)).take 4).length ≤ 4 := List.length_take_le _ _
        exact UInt32.toNat_ofNat_of_lt' (Nat.lt_of_lt_of_le hlt (Nat.pow_le_pow_right (by decide) hle))
      · rfl
    rw [hoptions]
    by_cases hstart : 8 + declaredEntries + 4 > p.length
    · rw [if_pos hstart, if_pos hstart, if_neg (Nat.not_le.2 hstart)]
      simp [SdContext.of, slots_nil]
    rw [if_neg hstart, if_neg hstart, if_pos (Nat.le_of_not_lt hstart)]
    by_cases hnone : readBe p (8 + declaredEntries) 4 = 0
    · rw [if_pos hnone, if_pos hnone]
      simp [SdContext.of, slots_nil]
    rw [if_neg hnone, if_neg hnone]
    generalize readBe p (8 + declaredEntries) 4 = declaredOptions
    have hloop : ∀ d : SdContext, d.sdOptions = slots _ [] {} → d.sdConfigItems = slots _ [] {} →
        d.sdConfigItemCount = 0 →
        optionsLoop p (8 + declaredEntries + 4) declaredOptions 0 { ctx := d } =
          some (OptionRegs.of d (optionLoop
            ((p.drop (8 + declaredEntries + 4)).take declaredOptions).length
            ((p.drop (8 + declaredEntries + 4)).take declaredOptions) {})) := by
      intro d hslots hitems hcount
      have hregs : ({ ctx := d } : OptionRegs) = OptionRegs.of d {} := by
        obtain ⟨⟩ := d
        simp only [OptionRegs.of] at hslots hitems hcount ⊢
        subst hslots hitems hcount
        rfl
      rw [hregs]
      exact optionsLoop_eq d ⟨Nat.zero_le _, fun _ => rfl⟩ (Nat.le_refl _)
    rw [hloop _ slots_nil.symm slots_nil.symm rfl]
    rfl

end Tc8Harness.Someip
