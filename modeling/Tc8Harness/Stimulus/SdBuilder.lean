import Tc8Harness.Stimulus.SdSession

/-!
# The SOME/IP-SD builders

`src/stimulus/someip_sd_builder.cpp`: the shared preamble, entries and options, and the builders of a
SubscribeEventgroup, of several OfferServices and of an OfferService with a Configuration option.
Lengths are computed in the widths the source computes them in. A builder's `assert`s on a value that
does not fit its field are left out: it writes the low bits, as a release build does.

Each builder is then rewritten as the decoder's layout (`sdLayout`) behind a SOME/IP header, which is
where the nested length fields are summed once and for all.
-/

namespace Tc8Harness.Stimulus

open BigEndian Wire Someip

/-! ## Parameters -/

structure Ipv4Endpoint where
  ipv4Be : UInt32 := 0
  port : UInt16 := 0
  l4proto : UInt8 := 0x11
  deriving DecidableEq, Repr

/-- An option by its parts; `body` is what follows the Reserved byte. -/
structure SdExtraOption where
  type : UInt8
  body : List UInt8
  reserved : UInt8 := 0
  deriving DecidableEq, Repr

structure SubscribeEventgroupTarget where
  serviceId : UInt16 := 0xF4E7
  instanceId : UInt16 := 0x0001
  eventgroupId : UInt16 := 0x0001
  majorVersion : UInt8 := 1
  ttl : UInt32 := 3
  counter : UInt8 := 0
  entryReserved : Option UInt16 := none
  deriving DecidableEq, Repr

structure SubscribeEventgroupParams where
  target : SubscribeEventgroupTarget := {}
  testerEndpoint : Ipv4Endpoint := {}
  secondEndpoint : Option Ipv4Endpoint := none
  sessionId : Option UInt16 := none
  sdFlags : UInt8 := kRebootUnicast
  entriesLenOverride : UInt32 := 0
  lengthOverride : Option UInt32 := none
  optionsLenOverride : Option UInt32 := none
  optionBodyLenOverride : Option UInt16 := none
  optionReserved0Override : Option UInt8 := none
  optionReserved1Override : Option UInt8 := none
  optionTypeOverride : Option UInt8 := none
  methodIdOverride : Option UInt16 := none
  numOptionsFirstOverride : Option UInt8 := none
  extraTrailingPayload : List UInt8 := []
  extraTrailingInLength : Bool := true
  indexFirstOptionsOverride : Option UInt8 := none
  indexSecondOptionsOverride : Option UInt8 := none
  numOptionsSecondOverride : Option UInt8 := none
  extraOptions : List SdExtraOption := []
  deriving DecidableEq, Repr

structure OfferServiceTarget where
  serviceId : UInt16 := 0xF4E8
  instanceId : UInt16 := 0x0001
  majorVersion : UInt8 := 0x01
  ttl : UInt32 := 3
  minorVersion : UInt32 := 0
  sessionId : Option UInt16 := none
  sdFlags : UInt8 := kRebootUnicast
  sdReserved : UInt32 := 0
  deriving DecidableEq, Repr

structure OfferServiceWithEndpointTarget where
  service : OfferServiceTarget := {}
  endpoint : Ipv4Endpoint := {}
  deriving DecidableEq, Repr

structure MultiOfferServiceParams where
  entries : List OfferServiceTarget := []
  endpoint : Ipv4Endpoint := {}
  sessionId : Option UInt16 := none
  sdFlags : UInt8 := kRebootUnicast
  sdReserved : UInt32 := 0
  deriving DecidableEq, Repr

/-! ## Pieces -/

/-- The SOME/IP header of every SD message. -/
def sdHeader (sessionId : Option UInt16) (length : UInt32) (methodId : UInt16) : Header :=
  { serviceId := kSdServiceId
    methodId := methodId
    length := length
    clientId := 0x0000
    sessionId := sessionId.getD kSdSessionFirst
    protocolVersion := 0x01
    interfaceVersion := 0x01
    messageType := MessageType.NOTIFICATION.toUInt8
    returnCode := ReturnCode.E_OK.toUInt8 }

def appendSdHeader (sessionId : Option UInt16) (length : UInt32) (flags : UInt8)
    (entriesLen reserved : UInt32) (methodId : UInt16) : List UInt8 :=
  appendHeader (sdHeader sessionId length methodId) ++
    ([flags] ++ (putBe24 reserved ++ putBe32 entriesLen))

def sdEntryOptionRun (numFirst numSecond : UInt8) : UInt8 :=
  ((numFirst &&& 0x0F) <<< 4) ||| (numSecond &&& 0x0F)

def kEntryOptionRun1 : UInt8 := sdEntryOptionRun 1 0
def kEntryTwoOptionsRun1 : UInt8 := sdEntryOptionRun 2 0

def sdSomeIpLengthField (entriesBytes optionsBytes : UInt32) : UInt32 :=
  20 + entriesBytes + optionsBytes

/-- The shape every option is appended in: Length, Type, Reserved, body, where Length counts the
bytes after Type. -/
def appendOption (type reserved : UInt8) (body : List UInt8) : List UInt8 :=
  putBe16 (UInt16.ofNat (1 + body.length)) ++ ([type, reserved] ++ body)

/-- The 8 bytes of an endpoint option after its Reserved byte; `ipv4_be` goes out as it lies in
memory. -/
def sdIpv4OptionBody (ep : Ipv4Endpoint) : List UInt8 :=
  bytes32 ep.ipv4Be ++ ([0x00, ep.l4proto] ++ putBe16 ep.port)

/-- Length-prefixed `key=value` items, ended by a zero-length one. -/
def encodeSdConfigOptionBody (items : List (List UInt8 × List UInt8)) : List UInt8 :=
  (items.flatMap fun kv =>
    UInt8.ofNat (kv.1.length + 1 + kv.2.length) :: (kv.1 ++ (kEquals :: kv.2))) ++ [0x00]

def appendIpv4EndpointOption (optionType : UInt8) (ep : Ipv4Endpoint) : List UInt8 :=
  appendOption optionType 0 (sdIpv4OptionBody ep)

def appendConfigurationOption (items : List (List UInt8 × List UInt8)) : List UInt8 :=
  appendOption kConfiguration 0 (encodeSdConfigOptionBody items)

def appendSdExtraOption (eo : SdExtraOption) : List UInt8 := appendOption eo.type eo.reserved eo.body

def appendSdType1Entry (entryType indexFirstRun optionRun : UInt8) (serviceId instanceId : UInt16)
    (majorVersion : UInt8) (ttl minorVersion : UInt32) : List UInt8 :=
  [entryType, indexFirstRun, 0, optionRun] ++ (putBe16 serviceId ++ (putBe16 instanceId ++
    ([majorVersion] ++ (putBe24 ttl ++ putBe32 minorVersion))))

structure SdType2EntryFields where
  entryType : UInt8
  indexFirstRun : UInt8
  indexSecondRun : UInt8
  optionRun : UInt8
  serviceId : UInt16
  instanceId : UInt16
  majorVersion : UInt8
  ttl : UInt32
  entryReserved : UInt16
  counter : UInt8
  eventgroupId : UInt16

/-- Reserved and Counter share a word: 12 bits and 4. -/
def reservedCounter (entryReserved : UInt16) (counter : UInt8) : UInt16 :=
  ((entryReserved &&& 0x0FFF) <<< 4) ||| (counter &&& 0x0F).toUInt16

def appendSdType2Entry (e : SdType2EntryFields) : List UInt8 :=
  [e.entryType, e.indexFirstRun, e.indexSecondRun, e.optionRun] ++ (putBe16 e.serviceId ++
    (putBe16 e.instanceId ++ ([e.majorVersion] ++ (putBe24 e.ttl ++
      (putBe16 (reservedCounter e.entryReserved e.counter) ++ putBe16 e.eventgroupId)))))

/-! ## Builders -/

def SubscribeEventgroupParams.entry (p : SubscribeEventgroupParams) : SdType2EntryFields :=
  { entryType := kSubscribeEventgroup
    indexFirstRun := p.indexFirstOptionsOverride.getD 0
    indexSecondRun := p.indexSecondOptionsOverride.getD 0
    optionRun := sdEntryOptionRun (p.numOptionsFirstOverride.getD 1 &&& 0x0F)
      (p.numOptionsSecondOverride.getD 0 &&& 0x0F)
    serviceId := p.target.serviceId
    instanceId := p.target.instanceId
    majorVersion := p.target.majorVersion
    ttl := p.target.ttl
    entryReserved := p.target.entryReserved.getD 0
    counter := p.target.counter
    eventgroupId := p.target.eventgroupId }

def buildSubscribeEventgroup (p : SubscribeEventgroupParams) : List UInt8 :=
  let extraOptionsTotalBytes : UInt32 :=
    p.extraOptions.foldl (fun total eo => total + UInt32.ofNat (4 + eo.body.length)) 0
  let secondEndpointBytes : UInt32 := if p.secondEndpoint.isSome then 12 else 0
  let optionsBytes : UInt32 := 12 + secondEndpointBytes + extraOptionsTotalBytes
  let lengthField := p.lengthOverride.getD (sdSomeIpLengthField 16 optionsBytes)
  let entriesLenField := if p.entriesLenOverride = 0 then 16 else p.entriesLenOverride
  let optionsLenField := p.optionsLenOverride.getD optionsBytes
  let lengthWithTrailing :=
    if p.extraTrailingInLength then
      UInt32.ofNat (lengthField.toNat + p.extraTrailingPayload.length)
    else lengthField
  appendSdHeader p.sessionId lengthWithTrailing p.sdFlags entriesLenField 0
      (p.methodIdOverride.getD kSdMethodId) ++
    (appendSdType2Entry p.entry ++
    (putBe32 optionsLenField ++
    (putBe16 (p.optionBodyLenOverride.getD 9) ++
    ([p.optionTypeOverride.getD 0x04, p.optionReserved0Override.getD 0] ++
    (bytes32 p.testerEndpoint.ipv4Be ++
    ([p.optionReserved1Override.getD 0, p.testerEndpoint.l4proto] ++
    (putBe16 p.testerEndpoint.port ++
    ((p.secondEndpoint.map (appendIpv4EndpointOption kIpv4Endpoint)).getD [] ++
    (p.extraOptions.flatMap appendSdExtraOption ++ p.extraTrailingPayload)))))))))

def buildMultiOfferService (p : MultiOfferServiceParams) : List UInt8 :=
  let entriesLen := UInt32.ofNat (16 * p.entries.length)
  appendSdHeader p.sessionId (sdSomeIpLengthField entriesLen 12) p.sdFlags entriesLen p.sdReserved
      kSdMethodId ++
    ((p.entries.flatMap fun e =>
      appendSdType1Entry kOfferService 0 kEntryOptionRun1 e.serviceId e.instanceId e.majorVersion
        e.ttl e.minorVersion) ++
    (putBe32 12 ++ appendIpv4EndpointOption kIpv4Endpoint p.endpoint))

def buildOfferServiceWithEndpointAndConfigOption (dataEp : OfferServiceWithEndpointTarget)
    (configItems : List (List UInt8 × List UInt8)) : List UInt8 :=
  let opts := appendIpv4EndpointOption kIpv4Endpoint dataEp.endpoint ++
    appendConfigurationOption configItems
  let optionsLen := UInt32.ofNat opts.length
  appendSdHeader dataEp.service.sessionId (sdSomeIpLengthField 16 optionsLen)
      dataEp.service.sdFlags 16 dataEp.service.sdReserved kSdMethodId ++
    (appendSdType1Entry kOfferService 0 kEntryTwoOptionsRun1 dataEp.service.serviceId
      dataEp.service.instanceId dataEp.service.majorVersion dataEp.service.ttl
      dataEp.service.minorVersion ++
    (putBe32 optionsLen ++ opts))

/-! ## Lengths -/

theorem length_sdIpv4OptionBody (ep : Ipv4Endpoint) : (sdIpv4OptionBody ep).length = 8 := by
  simp [sdIpv4OptionBody]

theorem length_appendOption (type reserved : UInt8) (body : List UInt8) :
    (appendOption type reserved body).length = 4 + body.length := by
  simp only [appendOption, List.length_append, length_putBe16, List.length_cons, List.length_nil]
  omega

theorem length_appendSdType1Entry (entryType indexFirstRun optionRun : UInt8)
    (serviceId instanceId : UInt16) (majorVersion : UInt8) (ttl minorVersion : UInt32) :
    (appendSdType1Entry entryType indexFirstRun optionRun serviceId instanceId majorVersion ttl
      minorVersion).length = 16 := by
  simp [appendSdType1Entry]

theorem length_appendSdType2Entry (e : SdType2EntryFields) :
    (appendSdType2Entry e).length = 16 := by
  simp [appendSdType2Entry]

/-! ## Builders as layouts -/

/-- An endpoint option by its parts. -/
def Ipv4Endpoint.option (ep : Ipv4Endpoint) : SdExtraOption := ⟨kIpv4Endpoint, sdIpv4OptionBody ep, 0⟩

/-- The options of a Subscribe, by their parts and in order. -/
def SubscribeEventgroupParams.options (p : SubscribeEventgroupParams) : List SdExtraOption :=
  { type := kIpv4Endpoint
    reserved := p.optionReserved0Override.getD 0
    body := bytes32 p.testerEndpoint.ipv4Be ++
      ([p.optionReserved1Override.getD 0, p.testerEndpoint.l4proto] ++
        putBe16 p.testerEndpoint.port) } ::
  ((p.secondEndpoint.map Ipv4Endpoint.option).toList ++ p.extraOptions)

/-- No override touches a length, a count or a type on the wire. -/
structure SubscribeEventgroupParams.Canonical (p : SubscribeEventgroupParams) : Prop where
  entriesLen : p.entriesLenOverride = 0
  length : p.lengthOverride = none
  optionsLen : p.optionsLenOverride = none
  optionBodyLen : p.optionBodyLenOverride = none
  optionType : p.optionTypeOverride = none

/-- The running 32-bit total of the extra options is the length of their bytes. -/
private theorem extraOptionsTotalBytes_eq (options : List SdExtraOption) (n : Nat) :
    options.foldl (fun total eo => total + UInt32.ofNat (4 + eo.body.length)) (UInt32.ofNat n) =
      UInt32.ofNat (n + (options.flatMap appendSdExtraOption).length) := by
  induction options generalizing n with
  | nil => rfl
  | cons eo options ih =>
    rw [List.foldl_cons, ← UInt32.ofNat_add, ih, List.flatMap_cons, List.length_append,
      appendSdExtraOption, length_appendOption, Nat.add_assoc]

theorem length_options (p : SubscribeEventgroupParams) :
    (p.options.flatMap appendSdExtraOption).length =
      12 + (if p.secondEndpoint.isSome then 12 else 0) +
        (p.extraOptions.flatMap appendSdExtraOption).length := by
  cases hsecond : p.secondEndpoint with
  | none =>
    simp [SubscribeEventgroupParams.options, hsecond, appendSdExtraOption, length_appendOption]
  | some ep =>
    simp [SubscribeEventgroupParams.options, hsecond, Ipv4Endpoint.option, appendSdExtraOption,
      length_appendOption, length_sdIpv4OptionBody]
    omega

/-- A canonical Subscribe is the SD layout of one entry and its options. -/
theorem buildSubscribeEventgroup_layout {p : SubscribeEventgroupParams} (hp : p.Canonical) :
    buildSubscribeEventgroup p =
      appendHeader (sdHeader p.sessionId
        (UInt32.ofNat (36 + (p.options.flatMap appendSdExtraOption).length +
          if p.extraTrailingInLength then p.extraTrailingPayload.length else 0))
        (p.methodIdOverride.getD kSdMethodId)) ++
      (sdLayout p.sdFlags 0 [appendSdType2Entry p.entry] (p.options.flatMap appendSdExtraOption) ++
        p.extraTrailingPayload) := by
  let n := (p.options.flatMap appendSdExtraOption).length
  have hoptions : (12 : UInt32) + (if p.secondEndpoint.isSome then 12 else 0) +
      p.extraOptions.foldl (fun total eo => total + UInt32.ofNat (4 + eo.body.length)) 0 =
        UInt32.ofNat n := by
    have hextra := extraOptionsTotalBytes_eq p.extraOptions 0
    rw [Nat.zero_add] at hextra
    simp only [n, length_options]
    rw [UInt32.ofNat_add, UInt32.ofNat_add, ← hextra]
    cases p.secondEndpoint <;> rfl
  have hlength : sdSomeIpLengthField 16 (UInt32.ofNat n) = UInt32.ofNat (36 + n) := by
    rw [sdSomeIpLengthField, UInt32.ofNat_add]
    rfl
  have htrailing : (if p.extraTrailingInLength then
        UInt32.ofNat ((UInt32.ofNat (36 + n)).toNat + p.extraTrailingPayload.length)
      else UInt32.ofNat (36 + n)) =
      UInt32.ofNat (36 + n + if p.extraTrailingInLength then p.extraTrailingPayload.length else 0) := by
    cases p.extraTrailingInLength with
    | true => rw [if_pos rfl, if_pos rfl, UInt32.ofNat_add, UInt32.ofNat_toNat, ← UInt32.ofNat_add]
    | false => simp
  have hbytes : p.options.flatMap appendSdExtraOption =
      putBe16 9 ++ ([kIpv4Endpoint, p.optionReserved0Override.getD 0] ++
        (bytes32 p.testerEndpoint.ipv4Be ++
        ([p.optionReserved1Override.getD 0, p.testerEndpoint.l4proto] ++
        (putBe16 p.testerEndpoint.port ++
        ((p.secondEndpoint.map (appendIpv4EndpointOption kIpv4Endpoint)).getD [] ++
          p.extraOptions.flatMap appendSdExtraOption))))) := by
    cases hsecond : p.secondEndpoint with
    | none => simp [SubscribeEventgroupParams.options, hsecond, appendSdExtraOption, appendOption]
    | some ep =>
      simp [SubscribeEventgroupParams.options, hsecond, Ipv4Endpoint.option, appendSdExtraOption,
        appendOption, appendIpv4EndpointOption]
  unfold buildSubscribeEventgroup
  simp only [hp.entriesLen, hp.length, hp.optionsLen, hp.optionBodyLen, hp.optionType,
    Option.getD_none, if_true, hoptions, hlength, htrailing, appendSdHeader, sdLayout]
  rw [hbytes]
  simp only [n, hbytes, List.append_assoc, List.flatten_cons, List.flatten_nil, List.nil_append]
  rfl

/-- The entry of an offered service. -/
def OfferServiceTarget.entry (t : OfferServiceTarget) (optionRun : UInt8) : List UInt8 :=
  appendSdType1Entry kOfferService 0 optionRun t.serviceId t.instanceId t.majorVersion t.ttl
    t.minorVersion

theorem buildMultiOfferService_layout (p : MultiOfferServiceParams) :
    buildMultiOfferService p =
      appendHeader (sdHeader p.sessionId
        (sdSomeIpLengthField (UInt32.ofNat (16 * p.entries.length)) 12) kSdMethodId) ++
      sdLayout p.sdFlags p.sdReserved (p.entries.map fun e => e.entry kEntryOptionRun1)
        ([p.endpoint.option].flatMap appendSdExtraOption) := by
  have hlen : ([p.endpoint.option].flatMap appendSdExtraOption).length = 12 := by
    simp [Ipv4Endpoint.option, appendSdExtraOption, length_appendOption, length_sdIpv4OptionBody]
  simp only [buildMultiOfferService, appendSdHeader, sdLayout, hlen, List.length_map,
    Nat.mul_comm 16, List.append_assoc, ← List.flatMap_def]
  rw [List.flatMap_singleton]
  rfl

theorem buildOfferServiceWithEndpointAndConfigOption_layout (t : OfferServiceWithEndpointTarget)
    (items : List (List UInt8 × List UInt8)) :
    let options := [t.endpoint.option, ⟨kConfiguration, encodeSdConfigOptionBody items, 0⟩]
    buildOfferServiceWithEndpointAndConfigOption t items =
      appendHeader (sdHeader t.service.sessionId
        (sdSomeIpLengthField 16 (UInt32.ofNat (options.flatMap appendSdExtraOption).length))
        kSdMethodId) ++
      sdLayout t.service.sdFlags t.service.sdReserved [t.service.entry kEntryTwoOptionsRun1]
        (options.flatMap appendSdExtraOption) := by
  intro options
  have hopts : options.flatMap appendSdExtraOption =
      appendIpv4EndpointOption kIpv4Endpoint t.endpoint ++ appendConfigurationOption items := by
    simp only [options, List.flatMap_cons, List.flatMap_nil, List.append_nil]
    rfl
  simp only [buildOfferServiceWithEndpointAndConfigOption, appendSdHeader, sdLayout, hopts,
    List.append_assoc, List.flatten_cons, List.flatten_nil, List.nil_append]
  rfl

end Tc8Harness.Stimulus
